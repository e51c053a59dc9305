import AtreoAgent.Acl.Clients

/-! The indexes of the access list. Each takes a name to the position of the last row with
that name. A store is coherent when its indexes are those of its rows; the operations that
keep the names of every row keep the indexes without rebuilding them. -/
namespace Acl

open Codec Atreolink

variable {names : MemberACLEntry → List String} {members : List MemberACLEntry} {name : String}

theorem lookup_insertAll (names : List String) (i : Nat) (index : StringMap Nat) (name : String) :
    (names.foldl (fun index name => index.insert name i) index).lookup name =
      if name ∈ names then some i else index.lookup name := by
  induction names generalizing index with
  | nil => rfl
  | cons first rest ih =>
      rw [List.foldl_cons, ih]
      by_cases hRest : name ∈ rest
      · rw [if_pos hRest, if_pos (List.mem_cons_of_mem _ hRest)]
      · rw [if_neg hRest]
        by_cases hFirst : name = first
        · rw [hFirst, Finmap.lookup_insert, if_pos List.mem_cons_self]
        · rw [Finmap.lookup_insert_of_ne _ hFirst,
            if_neg (List.not_mem_cons_of_ne_of_not_mem hFirst hRest)]

theorem positionsBy_append (names : MemberACLEntry → List String) (members : List MemberACLEntry)
    (m : MemberACLEntry) (name : String) :
    (positionsBy names (members ++ [m])).lookup name =
      if name ∈ names m then some members.length else (positionsBy names members).lookup name := by
  rw [positionsBy, List.zipIdx_append, List.foldl_append]
  simp only [List.zipIdx_cons, List.zipIdx_nil, List.foldl_cons, List.foldl_nil, lookup_insertAll,
    Nat.zero_add]
  rfl

/-- An entry of the index is the position of the last row with the name. -/
theorem lookup_positionsBy {i : Nat} :
    (positionsBy names members).lookup name = some i ↔
      (∃ m, members[i]? = some m ∧ name ∈ names m) ∧
        ∀ j m, i < j → members[j]? = some m → name ∉ names m := by
  induction members using List.reverseRecOn with
  | nil => simp [positionsBy]
  | append_singleton rows last ih =>
      rw [positionsBy_append]
      by_cases hLast : name ∈ names last
      · rw [if_pos hLast]
        constructor
        · rintro ⟨⟩
          refine ⟨⟨last, List.getElem?_concat_length, hLast⟩, fun j m hj hm => ?_⟩
          rw [List.getElem?_eq_none (by rw [List.length_append]; exact hj)] at hm
          cases hm
        · rintro ⟨⟨m, hm, _⟩, hLater⟩
          have hBound := (List.getElem?_eq_some_iff.mp hm).1
          rw [List.length_append, List.length_singleton] at hBound
          by_contra hNe
          have hLess : i < rows.length :=
            Nat.lt_of_le_of_ne (Nat.lt_succ_iff.mp hBound) fun h => hNe (by rw [h])
          exact hLater rows.length last hLess List.getElem?_concat_length hLast
      · rw [if_neg hLast, ih]
        constructor
        · rintro ⟨⟨m, hm, hName⟩, hLater⟩
          refine ⟨⟨m, List.getElem?_append_left (List.getElem?_eq_some_iff.mp hm).1 ▸ hm, hName⟩,
            fun j n hj hn => ?_⟩
          rcases List.mem_append.mp (List.mem_of_getElem? hn) with hOld | hNew
          · by_cases hBound : j < rows.length
            · rw [List.getElem?_append_left hBound] at hn
              exact hLater j n hj hn
            · rw [List.getElem?_append_right (Nat.not_lt.mp hBound)] at hn
              rw [List.mem_singleton.mp (List.mem_of_getElem? hn)]
              exact hLast
          · rw [List.mem_singleton.mp hNew]
            exact hLast
        · rintro ⟨⟨m, hm, hName⟩, hLater⟩
          have hBound : i < rows.length := by
            by_contra hOut
            rw [List.getElem?_append_right (Nat.not_lt.mp hOut)] at hm
            rw [List.mem_singleton.mp (List.mem_of_getElem? hm)] at hName
            exact hLast hName
          rw [List.getElem?_append_left hBound] at hm
          refine ⟨⟨m, hm, hName⟩, fun j n hj hn => hLater j n hj ?_⟩
          rw [List.getElem?_append_left (List.getElem?_eq_some_iff.mp hn).1, hn]

/-- The index depends on the names of the rows alone. -/
theorem positionsBy_congr {other : List MemberACLEntry}
    (h : members.map names = other.map names) : positionsBy names members = positionsBy names other := by
  apply Finmap.ext_lookup
  intro name
  induction members using List.reverseRecOn generalizing other with
  | nil =>
      rw [List.map_nil, eq_comm, List.map_eq_nil_iff] at h
      rw [h]
  | append_singleton rows last ih =>
      rcases List.eq_nil_or_concat other with rfl | ⟨others, last', rfl⟩
      · simp at h
      · rw [List.concat_eq_append] at h ⊢
        rw [List.map_append, List.map_append] at h
        obtain ⟨hRows, hLast⟩ := List.append_inj' h rfl
        have hNames : names last = names last' := by simpa using hLast
        have hLength : rows.length = others.length := by simpa using congrArg List.length hRows
        rw [positionsBy_append, positionsBy_append, ih hRows, hNames, hLength]

/-- The row that the index finds. -/
def rowAt (names : MemberACLEntry → List String) (members : List MemberACLEntry) (name : String) :
    Option MemberACLEntry :=
  ((positionsBy names members).lookup name).bind fun i => members[i]?

variable {m : MemberACLEntry} {t : Store}

theorem rowAt_eq_some (h : rowAt names members name = some m) : m ∈ members ∧ name ∈ names m := by
  obtain ⟨i, hIndex, hRow⟩ := Option.bind_eq_some_iff.mp h
  obtain ⟨⟨n, hn, hName⟩, _⟩ := lookup_positionsBy.mp hIndex
  cases hRow.symm.trans hn
  exact ⟨List.mem_of_getElem? hRow, hName⟩

/-- A name of some row is found. -/
theorem exists_rowAt (hm : m ∈ members) (hName : name ∈ names m) :
    ∃ n, rowAt names members name = some n := by
  induction members using List.reverseRecOn with
  | nil => cases hm
  | append_singleton rows last ih =>
      rw [rowAt, positionsBy_append]
      by_cases hLast : name ∈ names last
      · rw [if_pos hLast]
        exact ⟨last, List.getElem?_concat_length⟩
      · rw [if_neg hLast]
        have hOld : m ∈ rows := by
          rcases List.mem_append.mp hm with hOld | hNew
          · exact hOld
          · rw [List.mem_singleton.mp hNew] at hName
            exact absurd hName hLast
        obtain ⟨n, hn⟩ := ih hOld
        obtain ⟨i, hIndex, hRow⟩ := Option.bind_eq_some_iff.mp hn
        refine ⟨n, ?_⟩
        rw [hIndex, Option.bind_some, List.getElem?_append_left (List.getElem?_eq_some_iff.mp hRow).1]
        exact hRow

/-- A name that only one row has resolves to it. -/
theorem rowAt_of_unique (hm : m ∈ members) (hName : name ∈ names m)
    (hOnly : ∀ n ∈ members, name ∈ names n → n = m) : rowAt names members name = some m := by
  obtain ⟨n, hn⟩ := exists_rowAt hm hName
  obtain ⟨hMem, hHas⟩ := rowAt_eq_some hn
  rw [hn, hOnly n hMem hHas]

namespace Store

/-- The indexes are those of the rows. -/
def Coherent (s : Store) : Prop := s.rebuildIndexes = s

theorem coherent_iff {s : Store} :
    s.Coherent ↔ s.byTunnelIP = positionsBy tunnelIPs s.members ∧
      s.byMemberID = positionsBy (fun m => [m.memberID]) s.members ∧
      s.byEmailFull = fun lower => positionsBy (emails lower) s.members := by
  obtain ⟨members, apps, pin, generation, lastAppliedAt, byTunnelIP, byMemberID, byEmailFull⟩ := s
  rw [Coherent, rebuildIndexes, Store.mk.injEq]
  constructor
  · rintro ⟨_, _, _, _, _, hTunnel, hID, hEmail⟩
    exact ⟨hTunnel.symm, hID.symm, hEmail.symm⟩
  · rintro ⟨hTunnel, hID, hEmail⟩
    exact ⟨rfl, rfl, rfl, rfl, rfl, hTunnel.symm, hID.symm, hEmail.symm⟩

theorem coherent_new : new.Coherent := rfl

theorem coherent_rebuildIndexes (s : Store) : s.rebuildIndexes.Coherent := rfl

namespace Coherent

variable {s : Store}

theorem lookupByTunnelIP_eq (h : s.Coherent) (ip : String) :
    s.lookupByTunnelIP ip = rowAt tunnelIPs s.members ip := by
  rw [lookupByTunnelIP, (coherent_iff.mp h).1, rowAt]

theorem lookupByMemberID_eq (h : s.Coherent) (id : String) :
    s.lookupByMemberID id = rowAt (fun m => [m.memberID]) s.members id := by
  rw [lookupByMemberID, (coherent_iff.mp h).2.1, rowAt]

theorem lookupByEmail_eq (h : s.Coherent) (lower : Char → Char) (email : String) :
    s.lookupByEmail lower email = rowAt (emails lower) s.members (foldEmail lower email) := by
  rw [lookupByEmail, (coherent_iff.mp h).2.2, rowAt]

theorem exists_member (h : s.Coherent) {id : String} (hFound : s.lookupByMemberID id = some m) :
    m ∈ s.members ∧ m.memberID = id := by
  rw [h.lookupByMemberID_eq] at hFound
  obtain ⟨hm, hID⟩ := rowAt_eq_some hFound
  exact ⟨hm, (List.mem_singleton.mp hID).symm⟩

/-- Rows that keep their names keep the indexes. -/
theorem of_rows (h : s.Coherent) (hTunnel : t.byTunnelIP = s.byTunnelIP)
    (hID : t.byMemberID = s.byMemberID) (hEmail : t.byEmailFull = s.byEmailFull)
    (hRows : List.Forall₂ (fun m n : MemberACLEntry => n.memberID = m.memberID ∧
      n.email = m.email ∧ n.clients = m.clients) s.members t.members) : t.Coherent := by
  obtain ⟨hTunnel', hID', hEmail'⟩ := coherent_iff.mp h
  -- The names of a row are taken from these three fields.
  have hSame : ∀ names : MemberACLEntry → List String,
      (∀ m n : MemberACLEntry, n.memberID = m.memberID → n.email = m.email → n.clients = m.clients →
        names n = names m) → positionsBy names s.members = positionsBy names t.members := by
    intro names hNames
    apply positionsBy_congr
    generalize s.members = old at hRows
    generalize t.members = new at hRows
    induction hRows with
    | nil => rfl
    | cons hRow _ ih =>
        rw [List.map_cons, List.map_cons, ih, hNames _ _ hRow.1 hRow.2.1 hRow.2.2]
  refine coherent_iff.mpr ⟨?_, ?_, ?_⟩
  · rw [hTunnel, hTunnel', hSame]
    intro m n _ _ hClients
    rw [tunnelIPs, tunnelIPs, hClients]
  · rw [hID, hID', hSame]
    intro m n hSameID _ _
    rw [hSameID]
  · rw [hEmail, hEmail']
    funext lower
    rw [hSame]
    intro m n _ hSameEmail _
    rw [emails, emails, hSameEmail]

theorem setAppliedGeneration (h : s.Coherent) (gen : Int) (appliedAt : Time) :
    (s.setAppliedGeneration gen appliedAt).Coherent := by
  have hParts := coherent_iff.mp h
  exact coherent_iff.mpr hParts

/-- A store that is given its own rows and apps stays as it is. -/
theorem reconcile_self (h : s.Coherent) (hPin : s.validateAdminPin s.members = .ok ()) :
    s.reconcile s.members s.apps = .ok (s, ⟨[], [], []⟩) := by
  have hMembers : s.members.filter (fun prev => decide (prev.memberID ∉ s.members.map (·.memberID))) =
      [] := List.filter_eq_nil_iff.mpr fun m hm => by simpa using ⟨m, hm, rfl⟩
  have hApps : s.apps.filter (fun prev => decide (prev.id ∉ s.apps.map (·.id))) = [] :=
    List.filter_eq_nil_iff.mpr fun app happ => by simpa using ⟨app, happ, rfl⟩
  have hKeys : removedClientKeys s.members s.members = [] := by
    rw [List.eq_nil_iff_forall_not_mem]
    intro key hKey
    obtain ⟨_, hBefore, hAfter⟩ := mem_removedClientKeys.mp hKey
    exact hAfter hBefore
  have hStore : rebuildIndexes { s with members := s.members, apps := s.apps } = s := h
  unfold reconcile
  rw [hPin, hMembers, hApps, hKeys, hStore]
  rfl

theorem addClient {memberID : String} {rec : ClientRecord}
    (hAdd : s.addClient memberID rec = (t, true)) : t.Coherent := by
  obtain ⟨_, _, rfl⟩ := addClient_eq_true hAdd
  exact coherent_rebuildIndexes _

end Coherent

theorem removeClient_eq_false {s : Store} {memberID wgPublicKey : String}
    (h : s.removeClient memberID wgPublicKey = (t, false)) : t = s := by
  unfold removeClient at h
  split at h
  · cases h
    rfl
  next m hFind =>
    dsimp only at h
    split at h
    next hAny => cases h
    next hAny =>
      cases h
      have hKept : ∀ c ∈ m.clients, c.wgPublicKey ≠ wgPublicKey := by
        intro c hc hKey
        exact hAny (List.any_eq_true.mpr ⟨c, hc, decide_eq_true hKey⟩)
      have hSame : { m with clients := m.clients.filter (·.wgPublicKey ≠ wgPublicKey) } = m := by
        rw [List.filter_eq_self.mpr fun c hc => decide_eq_true (hKept c hc)]
      rw [updateFirst_eq_self hFind hSame]

theorem Coherent.removeClient {s : Store} (h : s.Coherent) (memberID wgPublicKey : String) :
    (s.removeClient memberID wgPublicKey).1.Coherent := by
  rcases hRemove : s.removeClient memberID wgPublicKey with ⟨t, removed⟩
  cases removed with
  | false =>
      rw [removeClient_eq_false hRemove]
      exact h
  | true =>
      unfold Store.removeClient at hRemove
      split at hRemove
      · cases hRemove
      · dsimp only at hRemove
        split at hRemove <;> cases hRemove
        exact coherent_rebuildIndexes _

end Store

end Acl
