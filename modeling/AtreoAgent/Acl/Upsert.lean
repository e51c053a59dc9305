import AtreoAgent.Acl.TunnelIndex

/-! What an upsert leaves of the clients of a member. A record that names a known key is
filled from the record it replaces, as `AddClient` fills it, the IPv6 address apart. Which
record is replaced differs when a key occurs twice: an upsert takes the last, `AddClient`
the first. -/
namespace Acl

open Codec Atreolink

theorem updateFirst_eq_modify {α : Type} (p : α → Bool) (f : α → α) (as : List α) :
    updateFirst p f as = as.modify (as.findIdx p) f := by
  induction as with
  | nil => rfl
  | cons a as ih =>
      rw [updateFirst, List.findIdx_cons]
      cases hp : p a with
      | true => rfl
      | false =>
          rw [if_neg Bool.false_ne_true, ih]
          rfl

theorem find?_updateFirst {α : Type} {p : α → Bool} {f : α → α} {as : List α} {a : α}
    (h : as.find? p = some a) (hKeep : p (f a) = true) :
    (updateFirst p f as).find? p = some (f a) := by
  induction as with
  | nil => cases h
  | cons b as ih =>
      rw [updateFirst]
      by_cases hb : p b = true
      · rw [List.find?_cons_of_pos hb] at h
        cases h
        rw [if_pos hb, List.find?_cons_of_pos hKeep]
      · rw [List.find?_cons_of_neg hb] at h
        rw [if_neg hb, List.find?_cons_of_neg hb, ih h]

variable {c prev : ClientRecord} {clients : List ClientRecord}

/-- A record that replaces `used` without keeping an IPv6 address, and one that replaces
`prev` and keeps it. -/
theorem fillFrom_eq_iff {used : ClientRecord} :
    ClientRecord.fillFrom c used false = ClientRecord.fillFrom c prev true ↔
      (c.tunnelIP = "" → used.tunnelIP = prev.tunnelIP) ∧ (c.tunnelIPv6 = "" → prev.tunnelIPv6 = "") ∧
        (c.label = "" → used.label = prev.label) ∧ (c.platform = "" → used.platform = prev.platform) ∧
        (c.endpointType = "" → used.endpointType = prev.endpointType) := by
  have hBlank : ∀ x y z : String, (if x = "" then y else x) = (if x = "" then z else x) ↔
      (x = "" → y = z) := by
    intro x y z
    split <;> simp [*]
  have hKept : ∀ x y : String, (x = if x = "" then y else x) ↔ (x = "" → y = "") := by
    intro x y
    split <;> simp [*, eq_comm]
  simp only [ClientRecord.fillFrom, ClientRecord.mk.injEq, true_and, Bool.false_and, Bool.true_and,
    hBlank, hKept, decide_eq_true_eq, Bool.false_eq_true, if_false]

/-- The incoming record keeps what it leaves blank: the records of its key agree there, and none
of them has an IPv6 address. -/
def Carried (clients : List ClientRecord) (c : ClientRecord) : Prop :=
  ∀ p ∈ clients, p.wgPublicKey = c.wgPublicKey → (c.tunnelIPv6 = "" → p.tunnelIPv6 = "") ∧
    ∀ q ∈ clients, q.wgPublicKey = c.wgPublicKey →
      (c.tunnelIP = "" → q.tunnelIP = p.tunnelIP) ∧ (c.label = "" → q.label = p.label) ∧
      (c.platform = "" → q.platform = p.platform) ∧
      (c.endpointType = "" → q.endpointType = p.endpointType)

theorem carried_iff :
    Carried clients c ↔ ∀ p ∈ clients, p.wgPublicKey = c.wgPublicKey → ∀ q ∈ clients,
      q.wgPublicKey = c.wgPublicKey →
        ClientRecord.fillFrom c q false = ClientRecord.fillFrom c p true := by
  constructor
  · intro h p hp hpKey q hq hqKey
    obtain ⟨hIPv6, hSame⟩ := h p hp hpKey
    obtain ⟨hIP, hLabel, hPlatform, hType⟩ := hSame q hq hqKey
    exact fillFrom_eq_iff.mpr ⟨hIP, hIPv6, hLabel, hPlatform, hType⟩
  · intro h p hp hpKey
    refine ⟨(fillFrom_eq_iff.mp (h p hp hpKey p hp hpKey)).2.1, fun q hq hqKey => ?_⟩
    obtain ⟨hIP, _, hRest⟩ := fillFrom_eq_iff.mp (h p hp hpKey q hq hqKey)
    exact ⟨hIP, hRest⟩

namespace Store

/-- The record an upsert leaves for an incoming one. -/
def mergeClient (clients : List ClientRecord) (c : ClientRecord) : ClientRecord :=
  match clients.reverse.find? (·.wgPublicKey = c.wgPublicKey) with
  | some prev => ClientRecord.fillFrom c prev false
  | none => c

theorem mergeMember_clients {existing member : MemberACLEntry} (h : member.clients ≠ []) :
    (mergeMember existing member).clients = member.clients.map (mergeClient existing.clients) := by
  rw [mergeMember, if_neg h]
  rfl

theorem mergeMember_memberID (existing member : MemberACLEntry) :
    (mergeMember existing member).memberID = member.memberID := by
  rw [mergeMember]
  split <;> rfl

/-- A record of a known key is filled from one of the records of the key. -/
theorem exists_mergeClient (h : prev ∈ clients) (hKey : prev.wgPublicKey = c.wgPublicKey) :
    ∃ last ∈ clients, last.wgPublicKey = c.wgPublicKey ∧
      mergeClient clients c = ClientRecord.fillFrom c last false := by
  rw [mergeClient]
  cases hFind : clients.reverse.find? (·.wgPublicKey = c.wgPublicKey) with
  | none =>
      have hNot := List.find?_eq_none.mp hFind prev (List.mem_reverse.mpr h)
      exact absurd (decide_eq_true hKey) hNot
  | some last =>
      refine ⟨last, List.mem_reverse.mp (List.mem_of_find?_eq_some hFind), ?_, rfl⟩
      simpa using List.find?_some hFind

/-- An upsert fills a record like every record of its key just if the record carries what it
leaves blank. -/
theorem mergeClient_eq_iff :
    (∀ prev ∈ clients, prev.wgPublicKey = c.wgPublicKey →
      mergeClient clients c = ClientRecord.fillFrom c prev true) ↔ Carried clients c := by
  constructor
  · intro h p hp hpKey
    obtain ⟨last, hLast, hLastKey, hMerge⟩ := exists_mergeClient hp hpKey
    have hEvery : ∀ q ∈ clients, q.wgPublicKey = c.wgPublicKey →
        ClientRecord.fillFrom c last false = ClientRecord.fillFrom c q true := by
      intro q hq hqKey
      rw [← hMerge, h q hq hqKey]
    obtain ⟨hIP, hIPv6, hLabel, hPlatform, hType⟩ := fillFrom_eq_iff.mp (hEvery p hp hpKey)
    refine ⟨hIPv6, fun q hq hqKey => ?_⟩
    obtain ⟨hIP', _, hLabel', hPlatform', hType'⟩ := fillFrom_eq_iff.mp (hEvery q hq hqKey)
    exact ⟨fun h => (hIP' h).symm.trans (hIP h), fun h => (hLabel' h).symm.trans (hLabel h),
      fun h => (hPlatform' h).symm.trans (hPlatform h), fun h => (hType' h).symm.trans (hType h)⟩
  · intro h prev hPrev hKey
    obtain ⟨last, hLast, hLastKey, hMerge⟩ := exists_mergeClient hPrev hKey
    rw [hMerge]
    exact carried_iff.mp h prev hPrev hKey last hLast hLastKey

/-- The record `AddClient` leaves for a known key of the member. -/
theorem addClient_record {s : Store} {memberID : String} {existing : MemberACLEntry}
    (hFound : s.members.find? (·.memberID = memberID) = some existing) (hKey : c.wgPublicKey ≠ "")
    (hFirst : existing.clients.find? (·.wgPublicKey = c.wgPublicKey) = some prev) :
    ∃ row, (s.addClient memberID c).1.members.find? (·.memberID = memberID) = some row ∧
      row.clients.find? (·.wgPublicKey = c.wgPublicKey) = some (ClientRecord.fillFrom c prev true) := by
  have hID : existing.memberID = memberID := by simpa using List.find?_some hFound
  have hStripped : (s.members.map (strip memberID c)).find? (·.memberID = memberID) = some existing := by
    have hSame : ((fun m : MemberACLEntry => decide (m.memberID = memberID)) ∘ strip memberID c) =
        fun m => decide (m.memberID = memberID) := by
      funext m
      rw [Function.comp_apply, strip_memberID]
    rw [List.find?_map, hSame, hFound, Option.map_some, strip_same c hID]
  have hKnown : (s.members.map (strip memberID c)).any (·.memberID = memberID) = true :=
    List.any_eq_true.mpr ⟨existing, List.mem_of_find?_eq_some hStripped, decide_eq_true hID⟩
  have hClient : existing.clients.any (·.wgPublicKey = c.wgPublicKey) = true :=
    List.any_eq_true.mpr ⟨prev, List.mem_of_find?_eq_some hFirst,
      by simpa using List.find?_some hFirst⟩
  refine ⟨{ existing with clients := putClient c existing.clients }, ?_, ?_⟩
  · rw [addClient, if_neg hKey]
    dsimp only
    rw [if_pos hKnown]
    exact find?_updateFirst hStripped (decide_eq_true hID)
  · dsimp only
    rw [putClient, if_pos hClient]
    exact find?_updateFirst hFirst (decide_eq_true rfl)

/-- The upsert of a member that is known. -/
theorem upsertMember_eq {s t : Store} {member existing : MemberACLEntry}
    (hFound : s.members.find? (·.memberID = member.memberID) = some existing)
    (h : s.upsertMember member = .ok t) :
    t = rebuildIndexes { s with
      members := updateFirst (·.memberID = member.memberID) (mergeMember · member) s.members } := by
  rw [upsertMember] at h
  cases hValid : s.validateAdminPin [member] with
  | error e =>
      rw [hValid] at h
      cases h
  | ok u =>
      have hID : existing.memberID = member.memberID := by simpa using List.find?_some hFound
      have hAny : s.members.any (·.memberID = member.memberID) = true :=
        List.any_eq_true.mpr ⟨existing, List.mem_of_find?_eq_some hFound, decide_eq_true hID⟩
      rw [hValid, if_pos hAny] at h
      cases h
      rfl

/-- No row behind the one an address is found at has the address. The clients of a row may
have been removed since. -/
def LastIndexed (s : Store) : Prop :=
  ∀ ip i, s.byTunnelIP.lookup ip = some i → ∀ j m, s.members[j]? = some m → ip ∈ tunnelIPs m → j ≤ i

theorem Coherent.lastIndexed {s : Store} (h : s.Coherent) : s.LastIndexed := by
  intro ip i hIndex j m hRow hHas
  rw [(coherent_iff.mp h).1, lookup_positionsBy] at hIndex
  exact not_lt.mp fun hLater => hIndex.2 j m hLater hRow hHas

/-- Removing clients leaves the index pointing far enough. -/
theorem LastIndexed.of_rows {s t : Store} (h : s.LastIndexed) (hIndex : t.byTunnelIP = s.byTunnelIP)
    (hRows : ∀ (j : Nat) (m : MemberACLEntry), t.members[j]? = some m →
      ∃ old : MemberACLEntry, s.members[j]? = some old ∧ ∀ c ∈ m.clients, c ∈ old.clients) :
    t.LastIndexed := by
  intro ip i hLookup j m hRow hHas
  obtain ⟨old, hOld, hSubset⟩ := hRows j m hRow
  obtain ⟨hIP, c, hc, hAddress⟩ := mem_tunnelIPs.mp hHas
  rw [hIndex] at hLookup
  exact h ip i hLookup j old hOld (mem_tunnelIPs.mpr ⟨hIP, c, hSubset c hc, hAddress⟩)

/-- An incoming record that leaves the address of an earlier one in place. -/
def LeavesAddress (c prev : ClientRecord) (ip : String) : Prop :=
  (prev.tunnelIP = ip ∧ (c.tunnelIP = "" ∨ c.tunnelIP = ip)) ∨
    (prev.tunnelIPv6 = ip ∧ (c.tunnelIPv6 = "" ∨ c.tunnelIPv6 = ip))

/-- The clients of a member are kept over an upsert from `s` to `t`, where `existing` is the
row of the member before and `row` the one after it. -/
structure KeepsClients (s t : Store) (existing member row : MemberACLEntry) : Prop where
  unlisted : member.clients = [] → row.clients = existing.clients
  listed : member.clients ≠ [] → row.clients.map (·.wgPublicKey) = member.clients.map (·.wgPublicKey)
  filled : ∀ (i : Nat) c r, member.clients[i]? = some c → row.clients[i]? = some r →
    ∀ prev ∈ existing.clients, prev.wgPublicKey = c.wgPublicKey → r = ClientRecord.fillFrom c prev true
  asAdded : ∀ (i : Nat) c r, member.clients[i]? = some c → row.clients[i]? = some r →
    (∃ prev ∈ existing.clients, prev.wgPublicKey = c.wgPublicKey) → c.wgPublicKey ≠ "" →
    ∃ added, (s.addClient member.memberID c).1.members.find? (·.memberID = member.memberID) =
        some added ∧ added.clients.find? (·.wgPublicKey = c.wgPublicKey) = some r
  found : ∀ ip prev, ip ≠ "" → prev ∈ existing.clients → s.lookupByTunnelIP ip = some existing →
    (member.clients = [] ∧ HasAddress ip prev ∨
      ∃ c ∈ member.clients, prev.wgPublicKey = c.wgPublicKey ∧ LeavesAddress c prev ip) →
    ∃ owner, t.lookupByTunnelIP ip = some owner ∧ owner.memberID = member.memberID

section Upserts

variable {s t : Store} {member existing : MemberACLEntry}

/-- A record that carries what it leaves blank has the address afterwards. -/
theorem hasAddress_mergeClient {ip : String} (hPrev : prev ∈ clients)
    (hKey : prev.wgPublicKey = c.wgPublicKey) (hCarried : Carried clients c)
    (h : LeavesAddress c prev ip) : HasAddress ip (mergeClient clients c) := by
  rw [mergeClient_eq_iff.mpr hCarried prev hPrev hKey]
  rcases h with ⟨rfl, hBlank | hSame⟩ | ⟨rfl, hBlank | hSame⟩
  · exact Or.inl (by simp [ClientRecord.fillFrom, hBlank])
  · exact Or.inl (by simp [ClientRecord.fillFrom, hSame])
  · exact Or.inr (by simp [ClientRecord.fillFrom, hBlank])
  · exact Or.inr (by simp [ClientRecord.fillFrom, hSame])

/-- An address whose row still has it after an upsert is found there. -/
theorem lookup_upsert (hIndex : s.LastIndexed)
    (hFound : s.members.find? (·.memberID = member.memberID) = some existing)
    (hUpsert : s.upsertMember member = .ok t) {ip : String} (hIP : ip ∈ tunnelIPs existing)
    (hKept : ip ∈ tunnelIPs (mergeMember existing member))
    (hBefore : s.lookupByTunnelIP ip = some existing) :
    ∃ owner, t.lookupByTunnelIP ip = some owner ∧ owner.memberID = member.memberID := by
  obtain ⟨j, hLookup, hRow⟩ := Option.bind_eq_some_iff.mp hBefore
  have hID : existing.memberID = member.memberID := by simpa using List.find?_some hFound
  -- The row that changes is not behind the one that was found.
  have hFirst : s.members.findIdx (·.memberID = member.memberID) ≤ j := by
    by_contra hBehind
    have hNot := List.not_of_lt_findIdx (not_le.mp hBehind)
    obtain ⟨_, hGet⟩ := List.getElem?_eq_some_iff.mp hRow
    simp [hGet, hID] at hNot
  obtain ⟨owner, hOwner, hHas, hOwnerID⟩ : ∃ owner : MemberACLEntry,
      (updateFirst (·.memberID = member.memberID) (mergeMember · member) s.members)[j]? = some owner ∧
        ip ∈ tunnelIPs owner ∧ owner.memberID = member.memberID := by
    rw [updateFirst_eq_modify, List.getElem?_modify, hRow]
    split
    · exact ⟨_, rfl, hKept, mergeMember_memberID existing member⟩
    · exact ⟨existing, rfl, hIP, hID⟩
  have hLater : ∀ (k : Nat) (m : MemberACLEntry), j < k →
      (updateFirst (·.memberID = member.memberID) (mergeMember · member) s.members)[k]? = some m →
        ip ∉ tunnelIPs m := by
    intro k m hk hm hAgain
    have hApart : s.members.findIdx (·.memberID = member.memberID) ≠ k := by omega
    rw [updateFirst_eq_modify, List.getElem?_modify_ne _ _ hApart] at hm
    exact absurd (hIndex ip j hLookup k m hm hAgain) (not_le.mpr hk)
  refine ⟨owner, ?_, hOwnerID⟩
  rw [upsertMember_eq hFound hUpsert, lookupByTunnelIP]
  have hNew := lookup_positionsBy.mpr ⟨⟨owner, hOwner, hHas⟩, hLater⟩
  simp only [rebuildIndexes, hNew, Option.bind_some, hOwner]

/-- An upsert keeps the clients of the member just if each incoming record carries what it
leaves blank. -/
theorem keepsClients_iff (hIndex : s.LastIndexed)
    (hFound : s.members.find? (·.memberID = member.memberID) = some existing)
    (hUpsert : s.upsertMember member = .ok t) :
    KeepsClients s t existing member (mergeMember existing member) ↔
      ∀ c ∈ member.clients, Carried existing.clients c := by
  have hMerged : ∀ (i : Nat) c r, member.clients[i]? = some c →
      (mergeMember existing member).clients[i]? = some r → r = mergeClient existing.clients c := by
    intro i c r hc hr
    have hSome : member.clients ≠ [] := by
      rintro hEmpty
      rw [hEmpty] at hc
      cases hc
    rw [mergeMember_clients hSome, List.getElem?_map, hc] at hr
    exact (Option.some.inj hr).symm
  constructor
  · intro h c hc
    obtain ⟨i, hi⟩ := List.getElem?_of_mem hc
    have hSome : member.clients ≠ [] := List.ne_nil_of_mem hc
    have hRecord : (mergeMember existing member).clients[i]? =
        some (mergeClient existing.clients c) := by
      rw [mergeMember_clients hSome, List.getElem?_map, hi, Option.map_some]
    exact mergeClient_eq_iff.mp (h.filled i c _ hi hRecord)
  · intro h
    have hFilled : ∀ (i : Nat) c r, member.clients[i]? = some c →
        (mergeMember existing member).clients[i]? = some r → ∀ prev ∈ existing.clients,
          prev.wgPublicKey = c.wgPublicKey → r = ClientRecord.fillFrom c prev true := by
      intro i c r hc hr prev hPrev hKey
      rw [hMerged i c r hc hr]
      exact mergeClient_eq_iff.mpr (h c (List.mem_of_getElem? hc)) prev hPrev hKey
    refine ⟨fun hEmpty => ?_, fun hSome => ?_, hFilled, ?_, ?_⟩
    · rw [mergeMember, if_pos hEmpty]
    · rw [mergeMember_clients hSome, List.map_map]
      refine List.map_congr_left fun c _ => ?_
      rw [Function.comp_apply, mergeClient]
      split <;> rfl
    · rintro i c r hc hr ⟨prev, hPrev, hKey⟩ hNonempty
      obtain ⟨first, hFirst⟩ : ∃ first, existing.clients.find? (·.wgPublicKey = c.wgPublicKey) =
          some first := by
        rw [← Option.isSome_iff_exists, List.find?_isSome]
        exact ⟨prev, hPrev, decide_eq_true hKey⟩
      have hFirstKey : first.wgPublicKey = c.wgPublicKey := by simpa using List.find?_some hFirst
      rw [hFilled i c r hc hr first (List.mem_of_find?_eq_some hFirst) hFirstKey]
      exact addClient_record hFound hNonempty hFirst
    · intro ip prev hIP hPrev hBefore hKept
      have hHad : HasAddress ip prev := by
        rcases hKept with ⟨_, hHas⟩ | ⟨_, _, _, ⟨hHas, _⟩ | ⟨hHas, _⟩⟩
        · exact hHas
        · exact Or.inl hHas
        · exact Or.inr hHas
      refine lookup_upsert hIndex hFound hUpsert (mem_tunnelIPs.mpr ⟨hIP, prev, hPrev, hHad⟩) ?_ hBefore
      rcases hKept with ⟨hEmpty, _⟩ | ⟨c, hc, hKey, hLeaves⟩
      · rw [mergeMember, if_pos hEmpty]
        exact mem_tunnelIPs.mpr ⟨hIP, prev, hPrev, hHad⟩
      · refine mem_tunnelIPs.mpr ⟨hIP, mergeClient existing.clients c, ?_,
          hasAddress_mergeClient hPrev hKey (h c hc) hLeaves⟩
        rw [mergeMember_clients (List.ne_nil_of_mem hc)]
        exact List.mem_map_of_mem hc

end Upserts

end Store

end Acl
