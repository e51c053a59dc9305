import AtreoAgent.Acl.TunnelIndex
import AtreoAgent.Agent.Lifecycle

/-! Calls of the exported operations of the access list. After each call the indexes are
those of the rows, and a call that reports a failure has changed nothing, unless a client
is added to a member that does not exist and the other members have been stripped of its
key and address. -/
namespace Lifecycle

open Codec Atreolink Acl Machine

/-- Whether the call reports success. A call that returns neither an error nor a flag
always does. -/
def StoreOp.succeeds (s : Store) : StoreOp → Bool
  | replaceAll members => (s.replaceAll members).isOk
  | reconcile members apps => (s.reconcile members apps).isOk
  | upsertMember member => (s.upsertMember member).isOk
  | setAllowedApps memberID apps => (s.setAllowedApps memberID apps).2
  | setMemberStatus memberID status => (s.setMemberStatus memberID status).2.isSome
  | addClient memberID rec => (s.addClient memberID rec).2
  | removeClient memberID wgPublicKey => (s.removeClient memberID wgPublicKey).2
  | setPinnedAdminPublicKey pub => (s.setPinnedAdminPublicKey pub).isOk
  | _ => true

/-- What a call should leave behind. -/
structure StoreOp.Sound (s : Store) (op : StoreOp) : Prop where
  coherent : (op.apply s).Coherent
  byTunnelIP : ∀ ip m, (op.apply s).lookupByTunnelIP ip = some m →
    m ∈ (op.apply s).members ∧ ∃ c ∈ m.clients, HasAddress ip c
  byMemberID : ∀ id m, (op.apply s).lookupByMemberID id = some m →
    m ∈ (op.apply s).members ∧ m.memberID = id
  byEmail : ∀ lower email m, (op.apply s).lookupByEmail lower email = some m →
    m ∈ (op.apply s).members ∧ foldEmail lower m.email = foldEmail lower email
  unchanged : op.succeeds s = false → op.apply s = s

/-- A client for a member that does not exist shares neither its key nor its address with
a client of the members that do. -/
def StoreOp.StripsNothing (s : Store) : StoreOp → Prop
  | addClient memberID rec =>
      rec.wgPublicKey ≠ "" → (∀ m ∈ s.members, m.memberID ≠ memberID) →
        ∀ m ∈ s.members, ∀ c ∈ m.clients, Store.keepsApart rec c = true
  | _ => True

variable {s : Store}

/-- The lookups of a coherent store give current rows. -/
theorem StoreOp.Sound.of_coherent {op : StoreOp} (h : (op.apply s).Coherent)
    (hUnchanged : op.succeeds s = false → op.apply s = s) : op.Sound s where
  coherent := h
  byTunnelIP ip m hFound := by
    obtain ⟨hm, _, hHas⟩ := h.exists_address hFound
    exact ⟨hm, hHas⟩
  byMemberID id m hFound := h.exists_member hFound
  byEmail lower email m hFound := by
    rw [h.lookupByEmail_eq] at hFound
    obtain ⟨hm, hEmail⟩ := rowAt_eq_some hFound
    exact ⟨hm, (List.mem_singleton.mp (List.mem_filter.mp hEmail).1).symm⟩
  unchanged := hUnchanged

/-- Members without anything to strip stay as they are. -/
theorem map_strip_eq_self {memberID : String} {rec : ClientRecord}
    (hApart : ∀ m ∈ s.members, ∀ c ∈ m.clients, Store.keepsApart rec c = true) :
    s.members.map (Store.strip memberID rec) = s.members := by
  refine (List.map_congr_left fun m hm => ?_).trans (List.map_id _)
  unfold Store.strip
  split
  · rfl
  · rw [List.filter_eq_self.mpr (hApart m hm)]
    rfl

/-- Members that stay as they are had nothing to strip. -/
theorem keepsApart_of_map_strip {memberID : String} {rec : ClientRecord}
    (hUnknown : ∀ m ∈ s.members, m.memberID ≠ memberID)
    (hSame : s.members.map (Store.strip memberID rec) = s.members) :
    ∀ m ∈ s.members, ∀ c ∈ m.clients, Store.keepsApart rec c = true := by
  intro m hm
  have hRow : Store.strip memberID rec m = m :=
    List.map_inj_left.mp (hSame.trans (List.map_id _).symm) m hm
  rw [Store.strip_other rec (hUnknown m hm)] at hRow
  have hClients : m.clients.filter (Store.keepsApart rec) = m.clients :=
    congrArg MemberACLEntry.clients hRow
  exact List.filter_eq_self.mp hClients

/-- Adding a client either rebuilds the indexes, changes nothing, or strips the other
members for a member that does not exist. -/
theorem sound_addClient (h : s.Coherent) (memberID : String) (rec : ClientRecord) :
    (StoreOp.addClient memberID rec).Sound s ↔ (StoreOp.addClient memberID rec).StripsNothing s := by
  constructor
  · intro hSound hKey hUnknown
    have hUnchanged := hSound.unchanged
    dsimp only [StoreOp.succeeds, StoreOp.apply] at hUnchanged
    rcases hAdd : s.addClient memberID rec with ⟨t, known⟩
    rw [hAdd] at hUnchanged
    cases known with
    | true =>
        obtain ⟨_, ⟨m, hm, hID⟩, _⟩ := Store.addClient_eq_true hAdd
        exact absurd hID (hUnknown m hm)
    | false =>
        have hSame : t = s := hUnchanged rfl
        rcases Store.addClient_eq_false hAdd with ⟨hBlank, _⟩ | ⟨_, hStripped⟩
        · exact absurd hBlank hKey
        · refine keepsApart_of_map_strip hUnknown ?_
          rw [hStripped] at hSame
          exact congrArg Store.members hSame
  · intro hNothing
    rcases hAdd : s.addClient memberID rec with ⟨t, known⟩
    cases known with
    | true =>
        refine .of_coherent ?_ fun hFails => ?_
        · rw [StoreOp.apply, hAdd]
          exact Store.Coherent.addClient hAdd
        · rw [StoreOp.succeeds, hAdd] at hFails
          cases hFails
    | false =>
        have hSame : (StoreOp.addClient memberID rec).apply s = s := by
          rw [StoreOp.apply, hAdd]
          rcases Store.addClient_eq_false hAdd with ⟨_, hSame⟩ | ⟨hUnknown, hStripped⟩
          · exact hSame
          · by_cases hKey : rec.wgPublicKey = ""
            · rw [Store.addClient, if_pos hKey] at hAdd
              exact (congrArg Prod.fst hAdd).symm
            · rw [hStripped, map_strip_eq_self (hNothing hKey hUnknown)]
        exact .of_coherent (hSame.symm ▸ h) fun _ => hSame

/-- A call that may return an error: nothing has changed, or the indexes were rebuilt. -/
theorem sound_of_error {op : StoreOp} (h : s.Coherent)
    (hOutcome : op.apply s = s ∨ (op.apply s).Coherent ∧ op.succeeds s = true) : op.Sound s := by
  rcases hOutcome with hSame | ⟨hCoherent, hOk⟩
  · exact .of_coherent (hSame.symm ▸ h) fun _ => hSame
  · refine .of_coherent hCoherent fun hFails => ?_
    rw [hOk] at hFails
    cases hFails

/-- Every call other than the one that strips is sound. -/
theorem sound_of_stripsNothing (h : s.Coherent) {op : StoreOp} (hNothing : op.StripsNothing s) :
    op.Sound s := by
  cases op with
  | addClient memberID rec => exact (sound_addClient h memberID rec).mpr hNothing
  | replaceAll members =>
      apply sound_of_error h
      rw [StoreOp.apply, StoreOp.succeeds, Store.replaceAll]
      cases s.validateAdminPin members with
      | error e => exact .inl rfl
      | ok u => exact .inr ⟨Store.coherent_rebuildIndexes _, rfl⟩
  | reconcile members apps =>
      apply sound_of_error h
      rw [StoreOp.apply, StoreOp.succeeds, Store.reconcile]
      cases s.validateAdminPin members with
      | error e => exact .inl rfl
      | ok u => exact .inr ⟨Store.coherent_rebuildIndexes _, rfl⟩
  | upsertMember member =>
      apply sound_of_error h
      rw [StoreOp.apply, StoreOp.succeeds, Store.upsertMember]
      cases s.validateAdminPin [member] with
      | error e => exact .inl rfl
      | ok u => exact .inr ⟨Store.coherent_rebuildIndexes _, rfl⟩
  | setAllowedApps memberID apps =>
      apply sound_of_error h
      rw [StoreOp.apply, StoreOp.succeeds, Store.setAllowedApps]
      split
      · exact .inr ⟨Store.coherent_rebuildIndexes _, rfl⟩
      · exact .inl rfl
  | setMemberStatus memberID status =>
      apply sound_of_error h
      rw [StoreOp.apply, StoreOp.succeeds, Store.setMemberStatus]
      split
      · exact .inr ⟨Store.coherent_rebuildIndexes _, rfl⟩
      · exact .inl rfl
  | removeClient memberID wgPublicKey =>
      refine .of_coherent (h.removeClient memberID wgPublicKey) fun hFails => ?_
      rw [StoreOp.apply]
      exact Store.removeClient_eq_false (Prod.ext rfl hFails)
  | setAppDefinitions apps =>
      apply sound_of_error h
      refine .inr ⟨h.of_rows rfl rfl rfl ?_, rfl⟩
      exact List.forall₂_map_right_iff.mpr (List.forall₂_same.mpr fun _ _ => ⟨rfl, rfl, rfl⟩)
  | removeAppByID appID =>
      apply sound_of_error h
      refine .inr ⟨h.of_rows rfl rfl rfl ?_, rfl⟩
      exact List.forall₂_map_right_iff.mpr (List.forall₂_same.mpr fun _ _ => ⟨rfl, rfl, rfl⟩)
  | removeMember memberID => exact sound_of_error h (.inr ⟨Store.coherent_rebuildIndexes _, rfl⟩)
  | setAppliedGeneration gen appliedAt =>
      exact sound_of_error h (.inr ⟨h.setAppliedGeneration gen appliedAt, rfl⟩)
  | dropMembersFailing accepts =>
      apply sound_of_error h
      rw [StoreOp.apply, Store.dropMembersFailing]
      split
      · exact .inl rfl
      · exact .inr ⟨Store.coherent_rebuildIndexes _, rfl⟩
  | setPinnedAdminPublicKey pub =>
      apply sound_of_error h
      rw [StoreOp.apply, StoreOp.succeeds, Store.setPinnedAdminPublicKey]
      split
      · split
        · exact .inl rfl
        · exact .inr ⟨h.of_rows rfl rfl rfl (List.forall₂_same.mpr fun _ _ => ⟨rfl, rfl, rfl⟩), rfl⟩
      · exact .inl rfl
  | clearPinnedAdminPublicKey =>
      apply sound_of_error h
      exact .inr ⟨h.of_rows rfl rfl rfl (List.forall₂_same.mpr fun _ _ => ⟨rfl, rfl, rfl⟩), rfl⟩

theorem sound_iff_stripsNothing (h : s.Coherent) (op : StoreOp) :
    op.Sound s ↔ op.StripsNothing s := by
  refine ⟨fun hSound => ?_, sound_of_stripsNothing h⟩
  cases op with
  | addClient memberID rec => exact (sound_addClient h memberID rec).mp hSound
  | _ => trivial

/-- In a sequence of calls each is sound exactly when none strips the members for a
member that does not exist. -/
theorem store_calls_sound (hStart : s.Coherent) (ops : List StoreOp) :
    Meets StoreOp.apply StoreOp.Sound s ops ↔
      Meets StoreOp.apply StoreOp.StripsNothing s ops := by
  exact meets_congr Store.Coherent (fun _ op h => sound_iff_stripsNothing h op)
    (fun _ _ _ hSound => hSound.coherent) hStart ops

/-- A member with one client. -/
def phoneHolder : MemberACLEntry :=
  { memberID := "m", userID := "", memberName := "", email := "", role := "member",
    identityKey := "", joinAttestation := none, admittance := none,
    clients := [{ wgPublicKey := "phone", tunnelIP := "100.64.0.2" }], allowedApps := [],
    status := "" }

/-- Another client with the address of the first. -/
def laptop : ClientRecord := { wgPublicKey := "laptop", tunnelIP := "100.64.0.2" }

/-- The store with the member alone. -/
def holding : Store := (StoreOp.upsertMember phoneHolder).apply Store.new

/-- A member that does not exist is refused the client, and the client of the member that
exists is gone, while its address still resolves. -/
theorem addClient_unknown_member_strips :
    (StoreOp.addClient "ghost" laptop).succeeds holding = false ∧
      holding.members.map (·.clients) = [phoneHolder.clients] ∧
      ((StoreOp.addClient "ghost" laptop).apply holding).members.map (·.clients) = [[]] ∧
      (((StoreOp.addClient "ghost" laptop).apply holding).lookupByTunnelIP "100.64.0.2").map
        (·.clients) = some [] ∧
      ¬ Meets StoreOp.apply StoreOp.Sound Store.new
        [.upsertMember phoneHolder, .addClient "ghost" laptop] := by
  refine ⟨by decide +kernel, by decide +kernel, by decide +kernel, by decide +kernel, ?_⟩
  rintro ⟨_, hSound, _⟩
  have hSame : (StoreOp.addClient "ghost" laptop).apply holding = holding :=
    hSound.unchanged (by decide +kernel)
  have hClients : ((StoreOp.addClient "ghost" laptop).apply holding).members.map (·.clients) ≠
      holding.members.map (·.clients) := by decide +kernel
  exact hClients (by rw [hSame])

theorem store_calls_sound_phoneHolder :
    Store.new.Coherent ∧
      Meets StoreOp.apply StoreOp.Sound Store.new
        [.upsertMember phoneHolder, .addClient "m" laptop, .removeClient "m" "phone"] := by
  refine ⟨Store.coherent_new, (store_calls_sound Store.coherent_new _).mpr ⟨trivial, ?_, trivial, trivial⟩⟩
  intro _ hUnknown
  exact absurd rfl (hUnknown phoneHolder (by decide +kernel))

end Lifecycle
