import AtreoAgent.Acl.Indexes

/-! Who owns a tunnel address. The index by tunnel address names the owner of an address
when no two client records share one. -/
namespace Acl

open Codec Atreolink

/-- The record has the address, as its IPv4 or its IPv6 one. -/
def HasAddress (ip : String) (c : ClientRecord) : Prop := c.tunnelIP = ip ∨ c.tunnelIPv6 = ip

/-- No value of the field, the empty one apart, occurs in two records. -/
def OnceAmong (field : ClientRecord → String) (members : List MemberACLEntry) : Prop :=
  (members.flatMap (·.clients)).Pairwise fun c d => field c = field d → field c = ""

instance (field : ClientRecord → String) (members : List MemberACLEntry) :
    Decidable (OnceAmong field members) :=
  inferInstanceAs (Decidable (List.Pairwise _ _))

variable {m : MemberACLEntry} {ip : String}

theorem mem_tunnelIPs : ip ∈ tunnelIPs m ↔ ip ≠ "" ∧ ∃ c ∈ m.clients, HasAddress ip c := by
  simp only [tunnelIPs, HasAddress, List.mem_flatMap, List.mem_filter, List.mem_cons,
    List.not_mem_nil, or_false, decide_eq_true_eq]
  constructor
  · rintro ⟨c, hc, hIP, hNe⟩
    exact ⟨hNe, c, hc, hIP.imp Eq.symm Eq.symm⟩
  · rintro ⟨hNe, c, hc, hIP⟩
    exact ⟨c, hc, hIP.imp Eq.symm Eq.symm, hNe⟩

variable {s : Store} {members : List MemberACLEntry}

/-- An address resolves to a row whose clients have it. -/
theorem Store.Coherent.exists_address (h : s.Coherent) (hFound : s.lookupByTunnelIP ip = some m) :
    m ∈ s.members ∧ ip ≠ "" ∧ ∃ c ∈ m.clients, HasAddress ip c := by
  rw [h.lookupByTunnelIP_eq] at hFound
  obtain ⟨hm, hIP⟩ := rowAt_eq_some hFound
  exact ⟨hm, mem_tunnelIPs.mp hIP⟩

/-- An address resolves to the one row whose clients have it. -/
theorem Store.Coherent.lookup_owner (h : s.Coherent) (hIP : ip ≠ "") (hm : m ∈ s.members)
    (hHas : ∃ c ∈ m.clients, HasAddress ip c)
    (hOnly : ∀ n ∈ s.members, (∃ c ∈ n.clients, HasAddress ip c) → n = m) :
    s.lookupByTunnelIP ip = some m := by
  rw [h.lookupByTunnelIP_eq]
  exact rowAt_of_unique hm (mem_tunnelIPs.mpr ⟨hIP, hHas⟩)
    fun n hn hOther => hOnly n hn (mem_tunnelIPs.mp hOther).2

/-- Two rows with clients that are not apart are the same row. -/
theorem row_eq_of_pairwise {R : ClientRecord → ClientRecord → Prop} (hSymm : ∀ c d, R c d → R d c)
    (h : (members.flatMap (·.clients)).Pairwise R) {n : MemberACLEntry} (hm : m ∈ members)
    (hn : n ∈ members) {c d : ClientRecord} (hc : c ∈ m.clients) (hd : d ∈ n.clients)
    (hNot : ¬ R c d) : m = n := by
  by_contra hRows
  obtain ⟨_, hPairs⟩ := List.pairwise_flatMap.mp h
  have hRowSymm : Std.Symm fun m n : MemberACLEntry => ∀ c ∈ m.clients, ∀ d ∈ n.clients, R c d :=
    ⟨fun _ _ hmn c hc d hd => hSymm d c (hmn d hd c hc)⟩
  exact hNot (hPairs.forall hm hn hRows c hc d hd)

/-- Two rows that share a value of the field are the same row. -/
theorem OnceAmong.row_eq {field : ClientRecord → String} (h : OnceAmong field members)
    {n : MemberACLEntry} (hm : m ∈ members) (hn : n ∈ members) {c d : ClientRecord}
    (hc : c ∈ m.clients) (hd : d ∈ n.clients) (hSame : field c = field d) (hNe : field c ≠ "") :
    m = n :=
  row_eq_of_pairwise (fun _ _ h hEq => hEq ▸ h hEq.symm) h hm hn hc hd fun h => hNe (h hSame)

/-- The keys that are not empty, in order. -/
def heldKeys (clients : List ClientRecord) : List String :=
  (clients.map (·.wgPublicKey)).filter (· ≠ "")

theorem mem_heldKeys {clients : List ClientRecord} {key : String} :
    key ∈ heldKeys clients ↔ key ≠ "" ∧ ∃ c ∈ clients, c.wgPublicKey = key := by
  rw [heldKeys, List.mem_filter, List.mem_map, decide_eq_true_eq, and_comm]

theorem flatMap_heldKeys (members : List MemberACLEntry) :
    (members.flatMap fun m => heldKeys m.clients) = (clientKeys members).filter (· ≠ "") := by
  simp only [heldKeys, clientKeys, List.filter_flatMap]

theorem onceAmong_keys_iff :
    OnceAmong (·.wgPublicKey) members ↔ (members.flatMap fun m => heldKeys m.clients).Nodup := by
  have hFlat : (members.flatMap fun m => heldKeys m.clients) =
      heldKeys (members.flatMap (·.clients)) := by
    simp only [heldKeys, List.map_flatMap, List.filter_flatMap]
  rw [hFlat, heldKeys, List.Nodup, List.pairwise_filter, List.pairwise_map, OnceAmong]
  refine List.Pairwise.iff fun c d => ?_
  simp only [decide_eq_true_eq]
  constructor
  · intro h hc _ hSame
    exact hc (h hSame)
  · intro h hSame
    by_contra hc
    exact h hc (hSame ▸ hc) hSame

namespace Store

theorem heldKeys_strip (memberID : String) (rec : ClientRecord) (m : MemberACLEntry) :
    (heldKeys (strip memberID rec m).clients).Sublist (heldKeys m.clients) := by
  unfold strip
  split
  · exact List.Sublist.refl _
  · exact (List.filter_sublist.map _).filter _

/-- Putting a record adds its key unless it is there. -/
theorem heldKeys_putClient {rec : ClientRecord} (hKey : rec.wgPublicKey ≠ "")
    (clients : List ClientRecord) :
    heldKeys (putClient rec clients) = heldKeys clients ∨
      (rec.wgPublicKey ∉ heldKeys clients ∧
        heldKeys (putClient rec clients) = heldKeys clients ++ [rec.wgPublicKey]) := by
  unfold putClient
  split
  · left
    have hKeys : ∀ cs : List ClientRecord,
        (updateFirst (fun c => decide (c.wgPublicKey = rec.wgPublicKey))
          (fun c => ClientRecord.fillFrom rec c true) cs).map (·.wgPublicKey) =
            cs.map (·.wgPublicKey) := by
      intro cs
      induction cs with
      | nil => rfl
      | cons c cs ih =>
          rw [updateFirst]
          split
          next hSame =>
            have hEq : c.wgPublicKey = rec.wgPublicKey := of_decide_eq_true hSame
            simp [ClientRecord.fillFrom, hEq]
          next => simp only [List.map_cons, ih]
    rw [heldKeys, hKeys, heldKeys]
  next hNew =>
    right
    refine ⟨fun hMem => ?_, by simp [heldKeys, hKey]⟩
    obtain ⟨_, c, hc, hSame⟩ := mem_heldKeys.mp hMem
    exact hNew (List.any_eq_true.mpr ⟨c, hc, decide_eq_true hSame⟩)

/-- The first row of a member, and what `rewriteClients` makes of the rows around it. -/
theorem rewriteClients_split {memberID : String} (rec : ClientRecord)
    (rewrite : List ClientRecord → List ClientRecord) (h : ∃ m ∈ members, m.memberID = memberID) :
    ∃ before m after, members = before ++ m :: after ∧
      (∀ n ∈ before, n.memberID ≠ memberID) ∧
      (members.filter (·.memberID = memberID)).tail = after.filter (·.memberID = memberID) ∧
      rewriteClients memberID rec rewrite members = before.map (strip memberID rec) ++
        { m with clients := rewrite m.clients } :: after.map (strip memberID rec) := by
  obtain ⟨m, hFind⟩ : ∃ m, members.find? (·.memberID = memberID) = some m := by
    rw [← Option.isSome_iff_exists, List.find?_isSome]
    obtain ⟨m, hm, hID⟩ := h
    exact ⟨m, hm, decide_eq_true hID⟩
  obtain ⟨hID, before, after, rfl, hBefore⟩ := List.find?_eq_some_iff_append.mp hFind
  have hSame : m.memberID = memberID := of_decide_eq_true hID
  have hOthers : ∀ n ∈ before, n.memberID ≠ memberID := fun n hn => by simpa using hBefore n hn
  refine ⟨before, m, after, rfl, hOthers, ?_, ?_⟩
  · have hNone : before.filter (·.memberID = memberID) = [] :=
      List.filter_eq_nil_iff.mpr fun n hn => by simpa using hOthers n hn
    rw [List.filter_append, hNone, List.filter_cons, if_pos hID]
    rfl
  · rw [rewriteClients, List.map_append, List.map_cons, strip_same rec hSame]
    clear hFind hBefore h
    induction before with
    | nil => simp [updateFirst, hSame]
    | cons n before ih =>
        have hFirst : (strip memberID rec n).memberID ≠ memberID := by
          rw [strip_memberID]
          exact hOthers n List.mem_cons_self
        rw [List.map_cons, List.cons_append, updateFirst, if_neg (by simpa using hFirst),
          ih fun k hk => hOthers k (List.mem_cons_of_mem _ hk)]
        rfl

/-- Adding a client keeps the keys apart, if no further row of its member has the key. -/
theorem onceAmong_addClient {t : Store} {memberID : String} {rec : ClientRecord}
    (hAdd : s.addClient memberID rec = (t, true)) (h : OnceAmong (·.wgPublicKey) s.members)
    (hOnce : ∀ m ∈ (s.members.filter (·.memberID = memberID)).tail, ∀ c ∈ m.clients,
      c.wgPublicKey ≠ rec.wgPublicKey) : OnceAmong (·.wgPublicKey) t.members := by
  obtain ⟨hKey, hMember, rfl⟩ := addClient_eq_true hAdd
  obtain ⟨before, m, after, hMembers, hBefore, hTail, hRewrite⟩ :=
    rewriteClients_split rec (putClient rec) hMember
  change OnceAmong (·.wgPublicKey) (rewriteClients memberID rec (putClient rec) s.members)
  rw [hTail] at hOnce
  rw [onceAmong_keys_iff, hMembers, List.flatMap_append, List.flatMap_cons] at h
  rw [onceAmong_keys_iff, hRewrite, List.flatMap_append, List.flatMap_cons, List.flatMap_map,
    List.flatMap_map]
  dsimp only
  -- Around the first row of the member only keys of other members have gone.
  have hLess : ((before.flatMap fun n => heldKeys (strip memberID rec n).clients) ++
      (heldKeys m.clients ++ after.flatMap fun n => heldKeys (strip memberID rec n).clients)).Nodup :=
    h.sublist ((List.Sublist.flatMap_right _ fun n _ => heldKeys_strip memberID rec n).append
      ((List.Sublist.refl _).append
        (List.Sublist.flatMap_right _ fun n _ => heldKeys_strip memberID rec n)))
  rcases heldKeys_putClient hKey m.clients with hSame | ⟨hNew, hAppend⟩
  · rw [hSame]
    exact hLess
  · have hGone : ∀ n : MemberACLEntry, (n.memberID = memberID → ∀ c ∈ n.clients,
        c.wgPublicKey ≠ rec.wgPublicKey) →
        rec.wgPublicKey ∉ heldKeys (strip memberID rec n).clients := by
      intro n hn hMem
      obtain ⟨_, c, hc, hcKey⟩ := mem_heldKeys.mp hMem
      unfold strip at hc
      split at hc
      next hID => exact hn hID c hc hcKey
      next => simp [keepsApart, hcKey] at hc
    have hNowhere : rec.wgPublicKey ∉
        (before.flatMap fun n => heldKeys (strip memberID rec n).clients) ++
          (heldKeys m.clients ++ after.flatMap fun n => heldKeys (strip memberID rec n).clients) := by
      simp only [List.mem_append, List.mem_flatMap, not_or, not_exists, not_and]
      refine ⟨fun n hn => hGone n fun hID => absurd hID (hBefore n hn), hNew, fun n hn => ?_⟩
      exact hGone n fun hID => hOnce n (List.mem_filter.mpr ⟨hn, decide_eq_true hID⟩)
    rw [hAppend, List.append_assoc, List.singleton_append, ← List.append_assoc]
    refine (List.perm_middle.nodup_iff).mpr (List.nodup_cons.mpr ?_)
    rw [List.append_assoc]
    exact ⟨hNowhere, hLess⟩

end Store

end Acl
