import AtreoAgent.Acl.Anchored

/-! The client records of the access list: which rows and records adding and removing a
client leaves, and which keys disappear. -/
namespace Acl

open Codec Atreolink

variable {α : Type} {f : α → α} {p : α → Bool} {as : List α}

/-- An element stays, or its replacement is there. -/
theorem mem_or_mem_updateFirst {a : α} (h : a ∈ as) :
    a ∈ updateFirst p f as ∨ p a = true ∧ f a ∈ updateFirst p f as := by
  induction as with
  | nil => cases h
  | cons b bs ih =>
      rw [updateFirst]
      split
      next hb =>
        rcases List.mem_cons.mp h with rfl | hMem
        · exact Or.inr ⟨hb, List.mem_cons_self⟩
        · exact Or.inl (List.mem_cons_of_mem _ hMem)
      next =>
        rcases List.mem_cons.mp h with rfl | hMem
        · exact Or.inl List.mem_cons_self
        · rcases ih hMem with hStays | ⟨ha, hReplaced⟩
          · exact Or.inl (List.mem_cons_of_mem _ hStays)
          · exact Or.inr ⟨ha, List.mem_cons_of_mem _ hReplaced⟩

/-- Of the elements that meet the test only those after the first are still there. -/
theorem mem_updateFirst_tail {b : α} (h : b ∈ updateFirst p f as) :
    (b ∈ as ∧ (p b = true → b ∈ (as.filter p).tail)) ∨ ∃ a ∈ as, p a = true ∧ b = f a := by
  induction as with
  | nil => cases h
  | cons a as ih =>
      rw [updateFirst] at h
      split at h
      next ha =>
        rcases List.mem_cons.mp h with rfl | hb
        · exact Or.inr ⟨a, List.mem_cons_self, ha, rfl⟩
        · refine Or.inl ⟨List.mem_cons_of_mem _ hb, fun hp => ?_⟩
          rw [List.filter_cons_of_pos ha]
          exact List.mem_filter.mpr ⟨hb, hp⟩
      next ha =>
        rw [List.filter_cons_of_neg ha]
        rcases List.mem_cons.mp h with rfl | hb
        · exact Or.inl ⟨List.mem_cons_self, fun hp => absurd hp ha⟩
        · rcases ih hb with ⟨hMem, hTail⟩ | ⟨c, hc, hpc, rfl⟩
          · exact Or.inl ⟨List.mem_cons_of_mem _ hMem, hTail⟩
          · exact Or.inr ⟨c, List.mem_cons_of_mem _ hc, hpc, rfl⟩

theorem updateFirst_updateFirst {g : α → α} (hf : ∀ a, p a = true → p (f a) = true) (as : List α) :
    updateFirst p g (updateFirst p f as) = updateFirst p (g ∘ f) as := by
  induction as with
  | nil => rfl
  | cons a as ih =>
      rw [updateFirst, updateFirst]
      split
      next ha => rw [updateFirst, if_pos (hf a ha), Function.comp_apply]
      next ha => rw [updateFirst, if_neg ha, ih]

theorem updateFirst_of_find_none (h : as.find? p = none) : updateFirst p f as = as := by
  induction as with
  | nil => rfl
  | cons a as ih =>
      rw [List.find?_cons] at h
      split at h
      · cases h
      next ha => rw [updateFirst, if_neg (by simp [ha]), ih h]

theorem filter_updateFirst {q : α → Bool} (hf : ∀ a, p a = true → q a = false ∧ q (f a) = false)
    (as : List α) : (updateFirst p f as).filter q = as.filter q := by
  induction as with
  | nil => rfl
  | cons a as ih =>
      rw [updateFirst]
      split
      next ha => simp [hf a ha]
      next => rw [List.filter_cons, List.filter_cons, ih]

theorem updateFirst_eq_self {a : α} (hFind : as.find? p = some a) (hSame : f a = a) :
    updateFirst p f as = as := by
  induction as with
  | nil => cases hFind
  | cons b bs ih =>
      rw [updateFirst]
      split
      next hb =>
        rw [List.find?_cons_of_pos hb] at hFind
        rw [Option.some.inj hFind, hSame]
      next hb =>
        rw [List.find?_cons_of_neg hb] at hFind
        rw [ih hFind]

/-- With distinct names, replacing the first is replacing each with that name. -/
theorem updateFirst_eq_map {name : α → String} (h : (as.map name).Nodup) (k : String) :
    updateFirst (fun a => name a = k) f as = as.map fun a => if name a = k then f a else a := by
  induction as with
  | nil => rfl
  | cons a as ih =>
      obtain ⟨hNew, hRest⟩ := List.nodup_cons.mp h
      by_cases ha : name a = k
      · have hSame : as.map (fun b => if name b = k then f b else b) = as := by
          refine (List.map_congr_left fun b hb => if_neg fun hb' => hNew ?_).trans (List.map_id' as)
          rw [ha, ← hb']
          exact List.mem_map_of_mem hb
        rw [updateFirst, if_pos (decide_eq_true ha), List.map_cons, if_pos ha, hSame]
      · rw [updateFirst, if_neg (by simpa using ha), List.map_cons, if_neg ha, ih hRest]

theorem exists_mem_updateFirst (h : ∃ a ∈ as, p a = true) :
    ∃ a ∈ as, p a = true ∧ f a ∈ updateFirst p f as := by
  induction as with
  | nil => simp at h
  | cons b bs ih =>
      rw [updateFirst]
      split
      next hb => exact ⟨b, List.mem_cons_self, hb, List.mem_cons_self⟩
      next hb =>
        obtain ⟨a, ha, hp, hMem⟩ := ih (by simpa [hb] using h)
        exact ⟨a, List.mem_cons_of_mem _ ha, hp, List.mem_cons_of_mem _ hMem⟩

theorem mem_clientKeys {members : List MemberACLEntry} {k : String} :
    k ∈ clientKeys members ↔ ∃ m ∈ members, ∃ c ∈ m.clients, c.wgPublicKey = k := by
  simp [clientKeys, List.mem_flatMap, List.mem_map]

/-- The removed keys are those that were there and are not any more. -/
theorem mem_removedClientKeys {before after : List MemberACLEntry} {k : String} :
    k ∈ removedClientKeys before after ↔
      k ≠ "" ∧ k ∈ clientKeys before ∧ k ∉ clientKeys after := by
  -- The loop reports what was reported already and what it meets.
  have hLoop : ∀ (keys removed : List String),
      k ∈ keys.foldl (fun removed k => if k = "" ∨ k ∈ clientKeys after ∨ k ∈ removed then removed
        else removed ++ [k]) removed ↔
        k ∈ removed ∨ (k ≠ "" ∧ k ∈ keys ∧ k ∉ clientKeys after) := by
    intro keys
    induction keys with
    | nil => simp
    | cons key keys ih =>
        intro removed
        rw [List.foldl_cons, ih]
        split
        next hSkip =>
          by_cases hKey : k = key
          · subst hKey
            rcases hSkip with h | h | h <;> simp [h]
          · simp [hKey]
        next hNew =>
          by_cases hKey : k = key
          · subst hKey
            simp only [not_or] at hNew
            simp [hNew]
          · simp [hKey]
  rw [removedClientKeys, hLoop]
  simp

namespace Store

@[simp] theorem addClient_generation (s : Store) (memberID : String) (rec : ClientRecord) :
    (s.addClient memberID rec).1.generation = s.generation := by
  unfold addClient
  split
  · rfl
  · dsimp only
    split <;> rfl

@[simp] theorem removeClient_generation (s : Store) (memberID wgPublicKey : String) :
    (s.removeClient memberID wgPublicKey).1.generation = s.generation := by
  unfold removeClient
  split
  · rfl
  · dsimp only
    split <;> rfl

variable {rec : ClientRecord} {memberID : String} {m n : MemberACLEntry}
  {members : List MemberACLEntry} {rewrite : List ClientRecord → List ClientRecord} {s t : Store}

theorem mem_putClient {d : ClientRecord} {clients : List ClientRecord}
    (h : d ∈ putClient rec clients) :
    d ∈ clients ∨ d = rec ∨
      ∃ prev ∈ clients, prev.wgPublicKey = rec.wgPublicKey ∧ d = ClientRecord.fillFrom rec prev true := by
  unfold putClient at h
  split at h
  · rcases mem_updateFirst h with hMem | ⟨prev, hPrev, hKey, rfl⟩
    · exact Or.inl hMem
    · exact Or.inr (Or.inr ⟨prev, hPrev, of_decide_eq_true hKey, rfl⟩)
  · rcases List.mem_append.mp h with hMem | hNew
    · exact Or.inl hMem
    · exact Or.inr (Or.inl (List.mem_singleton.mp hNew))

/-- Records with another key stay. -/
theorem mem_putClient_of_ne {c : ClientRecord} {clients : List ClientRecord} (h : c ∈ clients)
    (hKey : c.wgPublicKey ≠ rec.wgPublicKey) : c ∈ putClient rec clients := by
  unfold putClient
  split
  · rcases mem_or_mem_updateFirst (p := fun c => c.wgPublicKey = rec.wgPublicKey)
      (f := fun c => ClientRecord.fillFrom rec c true) h with hStays | ⟨hSame, _⟩
    · exact hStays
    · exact absurd (of_decide_eq_true hSame) hKey
  · exact List.mem_append_left _ h

theorem key_mem_putClient (rec : ClientRecord) (clients : List ClientRecord) :
    ∃ c ∈ putClient rec clients, c.wgPublicKey = rec.wgPublicKey := by
  unfold putClient
  split
  next hAny =>
    obtain ⟨c, _, _, hMem⟩ := exists_mem_updateFirst (f := fun c => ClientRecord.fillFrom rec c true)
      (List.any_eq_true.mp hAny)
    exact ⟨_, hMem, rfl⟩
  next => exact ⟨rec, List.mem_append_right _ List.mem_cons_self, rfl⟩

/-- Taking the key out again leaves what was there under other keys. -/
theorem filter_putClient (rec : ClientRecord) (clients : List ClientRecord) :
    (putClient rec clients).filter (·.wgPublicKey ≠ rec.wgPublicKey) =
      clients.filter (·.wgPublicKey ≠ rec.wgPublicKey) := by
  unfold putClient
  split
  · refine filter_updateFirst (fun c hc => ?_) clients
    have hSame : c.wgPublicKey = rec.wgPublicKey := of_decide_eq_true hc
    simp [hSame, ClientRecord.fillFrom]
  · simp

/-- The rows when the clients of the first row of a member are rewritten and the other
members are stripped. -/
def rewriteClients (memberID : String) (rec : ClientRecord)
    (rewrite : List ClientRecord → List ClientRecord) (members : List MemberACLEntry) :
    List MemberACLEntry :=
  updateFirst (·.memberID = memberID) (fun m => { m with clients := rewrite m.clients })
    (members.map (strip memberID rec))

theorem strip_same (rec : ClientRecord) (h : m.memberID = memberID) : strip memberID rec m = m := by
  rw [strip, if_pos h]

theorem strip_other (rec : ClientRecord) (h : m.memberID ≠ memberID) :
    strip memberID rec m = { m with clients := m.clients.filter (keepsApart rec) } := by
  rw [strip, if_neg h]

@[simp] theorem strip_memberID (memberID : String) (rec : ClientRecord) (m : MemberACLEntry) :
    (strip memberID rec m).memberID = m.memberID := by
  unfold strip
  split <;> rfl

theorem filter_strip (memberID : String) (rec : ClientRecord) (members : List MemberACLEntry) :
    (members.map (strip memberID rec)).filter (·.memberID = memberID) =
      members.filter (·.memberID = memberID) := by
  induction members with
  | nil => rfl
  | cons m ms ih =>
      rw [List.map_cons, List.filter_cons, List.filter_cons, ih, strip_memberID]
      split
      next h => rw [strip_same rec (of_decide_eq_true h)]
      next => rfl

/-- Where a row comes from: another member, a further row of the member, or its first. -/
theorem mem_rewriteClients (h : n ∈ rewriteClients memberID rec rewrite members) :
    ∃ m ∈ members, n.memberID = m.memberID ∧ n.status = m.status ∧
      ((m.memberID ≠ memberID ∧ n.clients = m.clients.filter (keepsApart rec)) ∨
        (m.memberID = memberID ∧ n = m ∧ m ∈ (members.filter (·.memberID = memberID)).tail) ∨
        (m.memberID = memberID ∧ n.clients = rewrite m.clients)) := by
  rcases mem_updateFirst_tail h with ⟨hMem, hTail⟩ | ⟨stripped, hMem, hID, rfl⟩
  · obtain ⟨m, hm, rfl⟩ := List.mem_map.mp hMem
    by_cases hID : m.memberID = memberID
    · have hLater := hTail (by simpa using hID)
      rw [filter_strip, strip_same rec hID] at hLater
      rw [strip_same rec hID]
      exact ⟨m, hm, rfl, rfl, Or.inr (Or.inl ⟨hID, rfl, hLater⟩)⟩
    · rw [strip_other rec hID]
      exact ⟨m, hm, rfl, rfl, Or.inl ⟨hID, rfl⟩⟩
  · obtain ⟨m, hm, rfl⟩ := List.mem_map.mp hMem
    have hSame : m.memberID = memberID := by simpa using of_decide_eq_true hID
    rw [strip_same rec hSame]
    exact ⟨m, hm, rfl, rfl, Or.inr (Or.inr ⟨hSame, rfl⟩)⟩

/-- Where a client of a row comes from: it was there, or the rewriting put it there. -/
theorem clients_of_rewriteClients (h : n ∈ rewriteClients memberID rec rewrite members) :
    ∃ m ∈ members, n.status = m.status ∧
      ∀ d ∈ n.clients, d ∈ m.clients ∨ d ∈ rewrite m.clients := by
  obtain ⟨m, hm, _, hStatus, hFrom⟩ := mem_rewriteClients h
  refine ⟨m, hm, hStatus, ?_⟩
  intro d hd
  rcases hFrom with ⟨_, hClients⟩ | ⟨_, rfl, _⟩ | ⟨_, hClients⟩
  · rw [hClients] at hd
    exact Or.inl (List.mem_filter.mp hd).1
  · exact Or.inl hd
  · exact Or.inr (hClients ▸ hd)

/-- A record with another key and another address keeps its place. -/
theorem key_mem_rewriteClients
    (hKeeps : ∀ clients, ∀ c ∈ clients, c.wgPublicKey ≠ rec.wgPublicKey → c ∈ rewrite clients)
    {c : ClientRecord} (hm : m ∈ members) (hc : c ∈ m.clients)
    (hKey : c.wgPublicKey ≠ rec.wgPublicKey)
    (hAddress : rec.tunnelIP ≠ "" → c.tunnelIP ≠ rec.tunnelIP) :
    c.wgPublicKey ∈ clientKeys (rewriteClients memberID rec rewrite members) := by
  have hStripped : c ∈ (strip memberID rec m).clients := by
    unfold strip
    split
    · exact hc
    · refine List.mem_filter.mpr ⟨hc, ?_⟩
      simpa [keepsApart, hKey, imp_iff_not_or] using hAddress
  rw [mem_clientKeys]
  rcases mem_or_mem_updateFirst (p := fun m => m.memberID = memberID)
    (f := fun m => { m with clients := rewrite m.clients })
    (List.mem_map_of_mem (f := strip memberID rec) hm) with hStays | ⟨_, hReplaced⟩
  · exact ⟨_, hStays, c, hStripped, rfl⟩
  · exact ⟨_, hReplaced, c, hKeeps _ c hStripped hKey, rfl⟩

theorem addClient_eq_true (h : s.addClient memberID rec = (t, true)) :
    rec.wgPublicKey ≠ "" ∧ (∃ m ∈ s.members, m.memberID = memberID) ∧
      t = rebuildIndexes { s with members := rewriteClients memberID rec (putClient rec) s.members } := by
  unfold addClient at h
  split at h
  · cases h
  next hKey =>
    dsimp only at h
    split at h
    next hAny =>
      cases h
      refine ⟨hKey, ?_, rfl⟩
      simpa using hAny
    · cases h

/-- A client is refused for its empty key or because the member is unknown. -/
theorem addClient_eq_false (h : s.addClient memberID rec = (t, false)) :
    (rec.wgPublicKey = "" ∧ t = s) ∨
      ((∀ m ∈ s.members, m.memberID ≠ memberID) ∧
        t = { s with members := s.members.map (strip memberID rec) }) := by
  unfold addClient at h
  split at h
  next hKey =>
    cases h
    exact Or.inl ⟨hKey, rfl⟩
  next =>
    dsimp only at h
    split at h
    · cases h
    next hAny =>
      cases h
      exact Or.inr ⟨by simpa using hAny, rfl⟩

/-- A record after `AddClient` was there in a row of the same status, or has the key and
the address of the one that was added. -/
theorem mem_addClient (hIP : rec.tunnelIP ≠ "") (hn : n ∈ (s.addClient memberID rec).1.members)
    {d : ClientRecord} (hd : d ∈ n.clients) :
    ∃ m ∈ s.members, n.status = m.status ∧
      (d ∈ m.clients ∨ (d.wgPublicKey = rec.wgPublicKey ∧ d.tunnelIP = rec.tunnelIP)) := by
  rcases hAdd : s.addClient memberID rec with ⟨t, added⟩
  rw [hAdd] at hn
  cases added with
  | true =>
      obtain ⟨_, _, rfl⟩ := addClient_eq_true hAdd
      obtain ⟨m, hm, hStatus, hClients⟩ := clients_of_rewriteClients hn
      refine ⟨m, hm, hStatus, ?_⟩
      rcases hClients d hd with hOld | hPut
      · exact Or.inl hOld
      · rcases mem_putClient hPut with hMem | rfl | ⟨prev, _, _, rfl⟩
        · exact Or.inl hMem
        · exact Or.inr ⟨rfl, rfl⟩
        · refine Or.inr ⟨rfl, ?_⟩
          simp only [ClientRecord.fillFrom, if_neg hIP]
  | false =>
      rcases addClient_eq_false hAdd with ⟨_, rfl⟩ | ⟨_, rfl⟩
      · exact ⟨n, hn, rfl, Or.inl hd⟩
      · obtain ⟨m, hm, rfl⟩ := List.mem_map.mp hn
        unfold strip at hd ⊢
        split at hd
        next hSame => exact ⟨m, hm, by rw [if_pos hSame], Or.inl hd⟩
        next hOther => exact ⟨m, hm, by rw [if_neg hOther], Or.inl (List.mem_filter.mp hd).1⟩

theorem key_mem_addClient (h : s.addClient memberID rec = (t, true)) :
    rec.wgPublicKey ∈ clientKeys t.members := by
  obtain ⟨_, ⟨m, hm, hID⟩, rfl⟩ := addClient_eq_true h
  have hAny : ∃ row ∈ s.members.map (strip memberID rec),
      decide (row.memberID = memberID) = true :=
    ⟨strip memberID rec m, List.mem_map_of_mem hm, by simpa using hID⟩
  obtain ⟨row, _, _, hRow⟩ := exists_mem_updateFirst
    (f := fun m => { m with clients := putClient rec m.clients }) hAny
  obtain ⟨c, hc, hKey⟩ := key_mem_putClient rec row.clients
  exact mem_clientKeys.mpr ⟨_, hRow, c, hc, hKey⟩

theorem removeClient_members (s : Store) (memberID wgPublicKey : String) :
    (s.removeClient memberID wgPublicKey).1.members =
      updateFirst (·.memberID = memberID)
        (fun m => { m with clients := m.clients.filter (·.wgPublicKey ≠ wgPublicKey) }) s.members := by
  unfold removeClient
  split
  next hNone => rw [updateFirst_of_find_none hNone]
  next =>
    dsimp only
    split <;> rfl

/-- Adding a client and removing it again leaves the other members stripped. -/
theorem removeClient_addClient (h : s.addClient memberID rec = (t, true)) :
    (t.removeClient memberID rec.wgPublicKey).1.members =
      rewriteClients memberID rec (List.filter (·.wgPublicKey ≠ rec.wgPublicKey)) s.members := by
  obtain ⟨_, _, rfl⟩ := addClient_eq_true h
  have hTwice := updateFirst_updateFirst (p := fun m : MemberACLEntry => m.memberID = memberID)
    (f := fun m => { m with clients := putClient rec m.clients })
    (g := fun m => { m with clients := m.clients.filter (·.wgPublicKey ≠ rec.wgPublicKey) })
    (fun m hm => hm) (s.members.map (strip memberID rec))
  refine (removeClient_members _ _ _).trans (hTwice.trans ?_)
  rw [rewriteClients]
  congr 1
  funext m
  rw [Function.comp_apply, filter_putClient]

/-- No other member has the key or the address of the record. -/
def Apart (memberID : String) (rec : ClientRecord) (members : List MemberACLEntry) : Prop :=
  ∀ m ∈ members, m.memberID ≠ memberID → ∀ c ∈ m.clients, keepsApart rec c = true

theorem map_strip_eq_self_iff :
    members.map (strip memberID rec) = members ↔ Apart memberID rec members := by
  have hRow : ∀ m : MemberACLEntry, strip memberID rec m = m ↔
      (m.memberID ≠ memberID → ∀ c ∈ m.clients, keepsApart rec c = true) := by
    intro m
    by_cases hID : m.memberID = memberID
    · simp [strip_same rec hID, hID]
    · rw [strip_other rec hID, ← List.filter_eq_self]
      refine ⟨fun h _ => ?_, fun h => ?_⟩
      · exact congrArg MemberACLEntry.clients h
      · rw [h hID]
  induction members with
  | nil => simp [Apart]
  | cons m ms ih =>
      rw [List.map_cons, List.cons.injEq]
      refine (and_congr (hRow m) ih).trans ?_
      simp [Apart]

/-- Rewriting the clients of a member changes nothing just if no other member is stripped and
the first row of the member is as the rewriting leaves it. -/
theorem rewriteClients_eq_self_iff :
    rewriteClients memberID rec rewrite members = members ↔
      Apart memberID rec members ∧
        ∀ m, members.find? (·.memberID = memberID) = some m → rewrite m.clients = m.clients := by
  induction members with
  | nil => simp [rewriteClients, updateFirst, Apart]
  | cons m ms ih =>
      by_cases hID : m.memberID = memberID
      · have hFirst : rewriteClients memberID rec rewrite (m :: ms) =
            { m with clients := rewrite m.clients } :: ms.map (strip memberID rec) := by
          rw [rewriteClients, List.map_cons, strip_same rec hID, updateFirst,
            if_pos (decide_eq_true hID)]
        have hClients : ({ m with clients := rewrite m.clients } : MemberACLEntry) = m ↔
            rewrite m.clients = m.clients :=
          ⟨fun h => congrArg MemberACLEntry.clients h, fun h => by rw [h]⟩
        rw [hFirst, List.cons.injEq, hClients, map_strip_eq_self_iff]
        simp [Apart, hID, and_comm]
      · have hRest : rewriteClients memberID rec rewrite (m :: ms) =
            strip memberID rec m :: rewriteClients memberID rec rewrite ms := by
          rw [rewriteClients, List.map_cons, updateFirst, if_neg (by simp [hID])]
          rfl
        have hHead : strip memberID rec m = m ↔ ∀ c ∈ m.clients, keepsApart rec c = true := by
          have hSelf := @map_strip_eq_self_iff rec memberID [m]
          simpa [Apart, hID] using hSelf
        rw [hRest, List.cons.injEq, ih, hHead]
        simp [Apart, hID, and_assoc]

/-- The row with a record over the one with its key. -/
def setClient (rec : ClientRecord) (m : MemberACLEntry) : MemberACLEntry :=
  { m with
    clients := m.clients.map fun c =>
      if c.wgPublicKey = rec.wgPublicKey then ClientRecord.fillFrom rec c true else c }

/-- Adding the record of a client that is there, with an address nobody else has, changes this
record alone. -/
theorem addClient_eq_map (hKey : rec.wgPublicKey ≠ "") (hIDs : (s.members.map (·.memberID)).Nodup)
    (hKeys : ∀ m ∈ s.members, (m.clients.map (·.wgPublicKey)).Nodup)
    (hApart : Apart memberID rec s.members) (hm : m ∈ s.members) (hID : m.memberID = memberID)
    (hClient : rec.wgPublicKey ∈ m.clients.map (·.wgPublicKey)) :
    (s.addClient memberID rec).1.members = s.members.map (setClient rec) := by
  have hStrip : s.members.map (strip memberID rec) = s.members := map_strip_eq_self_iff.mpr hApart
  have hKnown : s.members.any (·.memberID = memberID) = true :=
    List.any_eq_true.mpr ⟨m, hm, decide_eq_true hID⟩
  have hAdded : (s.addClient memberID rec).1.members =
      updateFirst (·.memberID = memberID) (fun m => { m with clients := putClient rec m.clients })
        s.members := by
    simp only [addClient, if_neg hKey, hStrip, if_pos hKnown]
    rfl
  rw [hAdded, updateFirst_eq_map hIDs]
  refine List.map_congr_left fun n hn => ?_
  by_cases hSame : n.memberID = memberID
  · obtain rfl : n = m := List.inj_on_of_nodup_map hIDs hn hm (hSame.trans hID.symm)
    obtain ⟨c, hc, hcKey⟩ := List.mem_map.mp hClient
    have hThere : n.clients.any (·.wgPublicKey = rec.wgPublicKey) = true :=
      List.any_eq_true.mpr ⟨c, hc, decide_eq_true hcKey⟩
    rw [if_pos hSame, putClient, if_pos hThere, updateFirst_eq_map (hKeys n hn), setClient]
  · have hOthers : n.clients.map (fun c =>
        if c.wgPublicKey = rec.wgPublicKey then ClientRecord.fillFrom rec c true else c) =
          n.clients := by
      refine (List.map_congr_left fun c hc => if_neg fun hcKey => ?_).trans (List.map_id' _)
      have hKept := hApart n hn hSame c hc
      simp [keepsApart, hcKey] at hKept
    rw [if_neg hSame, setClient, hOthers]

end Store

/-- Every new row is an old one with other clients. -/
def Kin (old new : List MemberACLEntry) : Prop :=
  ∀ n ∈ new, ∃ m ∈ old, n = { m with clients := n.clients }

theorem Kin.refl (members : List MemberACLEntry) : Kin members members := fun m hm => ⟨m, hm, rfl⟩

theorem Kin.trans {a b c : List MemberACLEntry} (hab : Kin a b) (hbc : Kin b c) : Kin a c := by
  intro n hn
  obtain ⟨m, hm, hNew⟩ := hbc n hn
  obtain ⟨l, hl, hOld⟩ := hab m hm
  exact ⟨l, hl, by rw [hNew, hOld]⟩

theorem kin_of_subset {old new : List MemberACLEntry} (h : ∀ m ∈ new, m ∈ old) : Kin old new :=
  fun m hm => ⟨m, h m hm, rfl⟩

theorem kin_updateFirst {p : MemberACLEntry → Bool} (members : List MemberACLEntry)
    (rewrite : List ClientRecord → List ClientRecord) :
    Kin members (updateFirst p (fun m => { m with clients := rewrite m.clients }) members) := by
  intro n hn
  rcases mem_updateFirst hn with hOld | ⟨m, hm, _, rfl⟩
  · exact ⟨n, hOld, rfl⟩
  · exact ⟨m, hm, rfl⟩

namespace Store

theorem kin_addClient (s : Store) (memberID : String) (rec : ClientRecord) :
    Kin s.members (s.addClient memberID rec).1.members := by
  unfold addClient
  split
  · exact Kin.refl _
  · have hStripped : Kin s.members (s.members.map (strip memberID rec)) := by
      intro n hn
      obtain ⟨m, hm, rfl⟩ := List.mem_map.mp hn
      refine ⟨m, hm, ?_⟩
      unfold strip
      split <;> rfl
    dsimp only
    split
    · exact hStripped.trans (kin_updateFirst _ (putClient rec))
    · exact hStripped

theorem kin_removeClient (s : Store) (memberID wgPublicKey : String) :
    Kin s.members (s.removeClient memberID wgPublicKey).1.members := by
  unfold removeClient
  split
  · exact Kin.refl _
  · dsimp only
    split <;> exact kin_updateFirst _ (·.filter (·.wgPublicKey ≠ wgPublicKey))

end Store

end Acl
