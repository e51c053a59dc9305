import AtreoAgent.Acl.Store
import AtreoAgent.Machine.Fallible

/-! Which store operations keep the admin rows at the pinned key. An operation either
checks the rows it brings in, or builds every row from one that was there with the same
role and identity key. -/
namespace Acl

open Codec Atreolink

/-- Every admin row carries the given key. -/
def AdminRows (key : PublicKey) (members : List MemberACLEntry) : Prop :=
  ∀ m ∈ members, m.isAdmin = true → m.identityKey = key.base64

/-- While a key is pinned, every admin row carries it. -/
def Store.Anchored (s : Store) : Prop :=
  ∀ key, s.pinnedAdminPubKey = some key → AdminRows key s.members

/-- Every row comes from one with the same role and identity key. -/
def RowsFrom (old new : List MemberACLEntry) : Prop :=
  ∀ m ∈ new, ∃ prev ∈ old, m.role = prev.role ∧ m.identityKey = prev.identityKey

/-- Rows made from anchored rows are anchored: the role alone makes a row an admin's, and a
row has the role and the key of the one it was made from. -/
theorem AdminRows.of_rowsFrom {key : PublicKey} {old new : List MemberACLEntry}
    (h : AdminRows key old) (hFrom : RowsFrom old new) : AdminRows key new := by
  intro m hm hAdmin
  obtain ⟨prev, hPrev, hRole, hKey⟩ := hFrom m hm
  rw [hKey]
  exact h prev hPrev (by rwa [MemberACLEntry.isAdmin, ← hRole])

theorem RowsFrom.refl (members : List MemberACLEntry) : RowsFrom members members :=
  fun m hm => ⟨m, hm, rfl, rfl⟩

/-- Two operations that build rows from rows, one after the other. -/
theorem RowsFrom.trans {a b c : List MemberACLEntry} (hab : RowsFrom a b) (hbc : RowsFrom b c) :
    RowsFrom a c := by
  intro m hm
  obtain ⟨n, hn, hRole, hKey⟩ := hbc m hm
  obtain ⟨l, hl, hRole', hKey'⟩ := hab n hn
  exact ⟨l, hl, hRole.trans hRole', hKey.trans hKey'⟩

/-- An operation on every row that touches neither role nor identity key. -/
theorem rowsFrom_map {f : MemberACLEntry → MemberACLEntry} (members : List MemberACLEntry)
    (hf : ∀ m, (f m).role = m.role ∧ (f m).identityKey = m.identityKey) :
    RowsFrom members (members.map f) := by
  intro m hm
  obtain ⟨prev, hPrev, rfl⟩ := List.mem_map.mp hm
  exact ⟨prev, hPrev, hf prev⟩

/-- An operation that only drops or reorders rows. -/
theorem rowsFrom_of_subset {old new : List MemberACLEntry} (h : ∀ m ∈ new, m ∈ old) :
    RowsFrom old new :=
  fun m hm => ⟨m, h m hm, rfl, rfl⟩

/-- What holds of every element after an update holds of the new value of the first match and of
all elements but that match. -/
theorem forall_mem_updateFirst {α : Type} {p : α → Bool} {f : α → α} {P : α → Prop}
    (as : List α) : (∀ b ∈ updateFirst p f as, P b) ↔
      (∀ a, as.find? p = some a → P (f a)) ∧ ∀ b ∈ as.eraseP p, P b := by
  induction as with
  | nil => simp [updateFirst]
  | cons a as ih =>
      cases ha : p a with
      | true => simp [updateFirst, ha, List.eraseP_cons_of_pos]
      | false =>
          simp only [updateFirst, ha, Bool.false_eq_true, if_false, List.forall_mem_cons, ih,
            List.find?_cons_of_neg, not_false_eq_true, List.eraseP_cons_of_neg]
          exact and_left_comm

/-- An element after an update was there before, or is the new value of one that matches. -/
theorem mem_updateFirst {α : Type} {p : α → Bool} {f : α → α} {as : List α} {b : α}
    (h : b ∈ updateFirst p f as) : b ∈ as ∨ ∃ a ∈ as, p a = true ∧ b = f a := by
  induction as with
  | nil => cases h
  | cons a as ih =>
      rw [updateFirst] at h
      split at h
      next hp =>
        rcases List.mem_cons.mp h with rfl | hb
        · exact Or.inr ⟨a, List.mem_cons_self, hp, rfl⟩
        · exact Or.inl (List.mem_cons_of_mem _ hb)
      next =>
        rcases List.mem_cons.mp h with rfl | hb
        · exact Or.inl List.mem_cons_self
        · rcases ih hb with hMem | ⟨c, hc, hpc, rfl⟩
          · exact Or.inl (List.mem_cons_of_mem _ hMem)
          · exact Or.inr ⟨c, List.mem_cons_of_mem _ hc, hpc, rfl⟩

/-- An update of one row that touches neither role nor identity key. -/
theorem rowsFrom_updateFirst {p : MemberACLEntry → Bool} {f : MemberACLEntry → MemberACLEntry}
    (members : List MemberACLEntry)
    (hf : ∀ m, (f m).role = m.role ∧ (f m).identityKey = m.identityKey) :
    RowsFrom members (updateFirst p f members) := by
  intro m hm
  rcases mem_updateFirst hm with hMem | ⟨prev, hPrev, _, rfl⟩
  · exact ⟨m, hMem, rfl, rfl⟩
  · exact ⟨prev, hPrev, hf prev⟩

namespace Store

variable {s t : Store} {members : List MemberACLEntry}

/-- The check passes just if every admin row carries the pinned key, which no empty key does.
Without a pin it passes whatever the rows are. -/
theorem validateAdminPin_eq_ok {u : Unit} :
    s.validateAdminPin members = .ok u ↔
      ∀ key, s.pinnedAdminPubKey = some key →
        ∀ m ∈ members, m.isAdmin = true → m.identityKey ≠ "" ∧ m.identityKey = key.base64 := by
  unfold validateAdminPin
  cases s.pinnedAdminPubKey with
  | none => simp
  | some pin =>
      dsimp only
      cases hFind : members.find? _ with
      | none =>
          simp only [List.find?_eq_none] at hFind
          simp only [true_iff]
          rintro _ ⟨⟩ m hm hAdmin
          have hFails := hFind m hm
          rw [hAdmin] at hFails
          simpa using hFails
      | some m =>
          have hBad := List.find?_some hFind
          have hMem := List.mem_of_find?_eq_some hFind
          simp only [reduceCtorEq, false_iff]
          intro hAll
          simp only [Bool.and_eq_true] at hBad
          obtain ⟨hSome, hKey⟩ := hAll pin rfl m hMem hBad.1
          rw [hKey] at hSome
          simp [hSome, hKey] at hBad

/-- What the check of the pin is for. -/
theorem adminRows_of_validate (h : s.validateAdminPin members = .ok ()) {key : PublicKey}
    (hPin : s.pinnedAdminPubKey = some key) : AdminRows key members :=
  fun m hm hAdmin => (validateAdminPin_eq_ok.mp h key hPin m hm hAdmin).2

/-- A store with rows made from those of another, under the same pin or none. -/
theorem Anchored.of_rowsFrom (h : s.Anchored)
    (hPin : t.pinnedAdminPubKey = s.pinnedAdminPubKey ∨ t.pinnedAdminPubKey = none)
    (hFrom : RowsFrom s.members t.members) : t.Anchored := by
  intro key hKey
  rcases hPin with hSame | hNone
  · exact (h key (hSame ▸ hKey)).of_rowsFrom hFrom
  · rw [hNone] at hKey
    cases hKey

/-- `Reconcile` gets past the check of the pin or changes nothing. It replaces members and apps
as a whole, and the keys it reports are those that no new row has. -/
theorem reconcile_eq_ok {apps : List App} {removed : Removed}
    (h : s.reconcile members apps = .ok (t, removed)) :
    s.validateAdminPin members = .ok () ∧
      t = rebuildIndexes { s with members := members, apps := apps } ∧
      removed.clientKeys = removedClientKeys s.members members := by
  obtain ⟨_, hValid, hSame⟩ := Fallible.bind_eq_ok.mp h
  cases hSame
  exact ⟨hValid, rfl, rfl⟩

/-- All rows of the result have been checked, so the store is anchored even if it was not before. -/
theorem anchored_reconcile {apps : List App} {removed : Removed}
    (h : s.reconcile members apps = .ok (t, removed)) : t.Anchored := by
  obtain ⟨hValid, rfl, _⟩ := reconcile_eq_ok h
  exact fun key hKey => adminRows_of_validate hValid hKey

/-- `ReplaceAll` checks all rows of the result as well. -/
theorem anchored_replaceAll (h : s.replaceAll members = .ok t) : t.Anchored := by
  obtain ⟨_, hValid, hSame⟩ := Fallible.bind_eq_ok.mp h
  cases hSame
  exact fun key hKey => adminRows_of_validate hValid hKey

/-- A merged row has the standing of the incoming one, whatever it keeps of the existing one. -/
theorem mergeMember_standing (existing member : MemberACLEntry) :
    (mergeMember existing member).role = member.role ∧
      (mergeMember existing member).identityKey = member.identityKey := by
  unfold mergeMember
  split <;> exact ⟨rfl, rfl⟩

/-- Only the incoming row is checked; the others are those of a store that was anchored. -/
theorem anchored_upsertMember (hs : s.Anchored) {member : MemberACLEntry}
    (h : s.upsertMember member = .ok t) : t.Anchored := by
  obtain ⟨_, hValid, hSame⟩ := Fallible.bind_eq_ok.mp h
  cases hSame
  intro key hKey m hm hAdmin
  have hIncoming := adminRows_of_validate hValid hKey member (by simp)
  dsimp only [rebuildIndexes] at hm hKey
  split at hm
  · rcases mem_updateFirst hm with hOld | ⟨prev, _, _, rfl⟩
    · exact hs key hKey m hOld hAdmin
    · -- The merged row has the standing of the incoming one.
      obtain ⟨hRole, hIdentity⟩ := mergeMember_standing prev member
      rw [hIdentity]
      exact hIncoming (by rwa [MemberACLEntry.isAdmin, ← hRole])
  · rcases List.mem_append.mp hm with hOld | hNew
    · exact hs key hKey m hOld hAdmin
    · cases List.mem_singleton.mp hNew
      exact hIncoming hAdmin

/-- A client is taken from the other rows and put into that of its member. Neither changes a role
or an identity key, also when the member is not there. -/
theorem addClient_spec (s : Store) (memberID : String) (rec : ClientRecord) :
    (s.addClient memberID rec).1.pinnedAdminPubKey = s.pinnedAdminPubKey ∧
      RowsFrom s.members (s.addClient memberID rec).1.members := by
  unfold addClient
  split
  · exact ⟨rfl, RowsFrom.refl _⟩
  · have hStripped : RowsFrom s.members (s.members.map (strip memberID rec)) :=
      rowsFrom_map _ fun m => by unfold strip; split <;> exact ⟨rfl, rfl⟩
    dsimp only
    split
    · exact ⟨rfl, hStripped.trans (rowsFrom_updateFirst _ fun _ => ⟨rfl, rfl⟩)⟩
    · exact ⟨rfl, hStripped⟩

theorem anchored_addClient (hs : s.Anchored) {memberID : String} {rec : ClientRecord}
    {known : Bool} (h : s.addClient memberID rec = (t, known)) : t.Anchored := by
  obtain ⟨hPin, hRows⟩ := addClient_spec s memberID rec
  rw [h] at hPin hRows
  exact hs.of_rowsFrom (Or.inl hPin) hRows

/-- A client is taken from the row of its member, which keeps role and identity key. -/
theorem removeClient_spec (s : Store) (memberID wgPublicKey : String) :
    (s.removeClient memberID wgPublicKey).1.pinnedAdminPubKey = s.pinnedAdminPubKey ∧
      RowsFrom s.members (s.removeClient memberID wgPublicKey).1.members := by
  unfold removeClient
  split
  · exact ⟨rfl, RowsFrom.refl _⟩
  · dsimp only
    split <;> exact ⟨rfl, rowsFrom_updateFirst _ fun _ => ⟨rfl, rfl⟩⟩

/-- The rows that are left are rows of the store, under the same pin. -/
theorem dropMembersFailing_spec (s : Store) (accepts : MemberACLEntry → Bool) :
    (s.dropMembersFailing accepts).1.pinnedAdminPubKey = s.pinnedAdminPubKey ∧
      RowsFrom s.members (s.dropMembersFailing accepts).1.members := by
  unfold dropMembersFailing
  dsimp only
  split
  · exact ⟨rfl, RowsFrom.refl _⟩
  · exact ⟨rfl, rowsFrom_of_subset fun m hm => (List.mem_filter.mp hm).1⟩

/-- The early return when every row is accepted makes no difference to the rows. -/
theorem dropMembersFailing_members (s : Store) (accepts : MemberACLEntry → Bool) :
    (s.dropMembersFailing accepts).1.members = s.members.filter accepts := by
  unfold dropMembersFailing
  dsimp only
  split
  next hNone =>
    refine (List.filter_eq_self.mpr fun m hm => ?_).symm
    by_contra hFails
    have hDropped : m ∈ s.members.filter (! accepts ·) :=
      List.mem_filter.mpr ⟨hm, by simpa using hFails⟩
    rw [hNone] at hDropped
    cases hDropped
  · rfl

/-- The apps and the generation are not those of a row and stay. -/
theorem dropMembersFailing_rest (s : Store) (accepts : MemberACLEntry → Bool) :
    (s.dropMembersFailing accepts).1.apps = s.apps ∧
      (s.dropMembersFailing accepts).1.generation = s.generation := by
  unfold dropMembersFailing
  dsimp only
  split <;> exact ⟨rfl, rfl⟩

/-- A member that is found is a row of the store, whatever the index says. -/
theorem mem_of_lookupByMemberID {id : String} {m : MemberACLEntry}
    (h : s.lookupByMemberID id = some m) : m ∈ s.members := by
  obtain ⟨i, _, hRow⟩ := Option.bind_eq_some_iff.mp h
  exact List.mem_of_getElem? hRow

end Store

end Acl
