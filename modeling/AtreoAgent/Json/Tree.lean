import AtreoAgent.Json.RoundTrip
import Mathlib.Data.List.Nodup
import Mathlib.Tactic.Tauto

/-! The untyped tree of a document. Decoding an object into a map keeps the last
of several members with one name. A map is listed in the bytewise order of its
names, so equal maps are equal lists. -/
namespace Json

open Codec

abbrev Members := List (String × Doc)

/-- `m[k] = v`. -/
def assign (k : String) (v : Doc) : Members → Members
  | [] => [(k, v)]
  | m :: ms =>
      if utf8 k < utf8 m.1 then (k, v) :: m :: ms
      else if k = m.1 then (k, v) :: ms
      else m :: assign k v ms

mutual

def Doc.tree : Doc → Doc
  | .arr items => .arr (treeItems items)
  | .obj members => .obj (treeMembers members [])
  | d => d

def treeItems : List Doc → List Doc
  | [] => []
  | d :: ds => d.tree :: treeItems ds

/-- The members in the order of the text, entered into a map one by one. -/
def treeMembers : Members → Members → Members
  | [], entries => entries
  | m :: ms, entries => treeMembers ms (assign m.1 m.2.tree entries)

end

theorem treeItems_eq_map (items : List Doc) : treeItems items = items.map Doc.tree := by
  induction items with
  | nil => rfl
  | cons d ds ih => simp [treeItems, ih]

/-- Entries in strictly increasing order of their names. -/
def Sorted (ms : Members) : Prop := ms.Pairwise fun m n => utf8 m.1 < utf8 n.1

variable {ms : Members} {m : String × Doc}

theorem mem_assign {k : String} {v : Doc} (h : m ∈ assign k v ms) : m = (k, v) ∨ m ∈ ms := by
  induction ms with
  | nil => simpa [assign] using h
  | cons n ns ih =>
      unfold assign at h
      split at h
      · simpa using h
      · split at h
        · simp only [List.mem_cons] at h ⊢
          tauto
        · simp only [List.mem_cons] at h ⊢
          rcases h with h | h
          · exact Or.inr (Or.inl h)
          · rcases ih h with h | h
            · exact Or.inl h
            · exact Or.inr (Or.inr h)

theorem sorted_assign (k : String) (v : Doc) (h : Sorted ms) : Sorted (assign k v ms) := by
  induction ms with
  | nil => simp [assign, Sorted]
  | cons m ms ih =>
      obtain ⟨hHead, hTail⟩ := List.pairwise_cons.mp h
      unfold assign
      split
      · rename_i hLess
        refine List.pairwise_cons.mpr ⟨?_, h⟩
        intro n hn
        rcases List.mem_cons.mp hn with rfl | hn
        · exact hLess
        · exact List.lt_trans hLess (hHead n hn)
      · rename_i hNotLess
        split
        · rename_i hEq
          subst hEq
          exact List.pairwise_cons.mpr ⟨hHead, hTail⟩
        · rename_i hNe
          refine List.pairwise_cons.mpr ⟨?_, ih hTail⟩
          intro n hn
          rcases mem_assign hn with rfl | hn
          · have hNames : utf8 m.1 ≠ utf8 k := fun hEq => hNe (utf8_injective hEq).symm
            exact Std.lt_of_le_of_ne (List.not_lt.mp hNotLess) hNames
          · exact hHead n hn

theorem sorted_treeMembers (ms : Members) {entries : Members} (h : Sorted entries) :
    Sorted (treeMembers ms entries) := by
  induction ms generalizing entries with
  | nil => exact h
  | cons m ms ih => exact ih (sorted_assign _ _ h)

/-- The value a map holds under a name. -/
def find (k : String) : Members → Option Doc
  | [] => none
  | m :: ms => if m.1 = k then some m.2 else find k ms

/-- The last member with a given name. -/
def findLast (k : String) : Members → Option Doc
  | [] => none
  | m :: ms => (findLast k ms).or (if m.1 = k then some m.2 else none)

theorem find_assign (k l : String) (v : Doc) (ms : Members) :
    find k (assign l v ms) = if l = k then some v else find k ms := by
  induction ms with
  | nil => simp [assign, find]
  | cons m ms ih =>
      unfold assign
      split
      · simp [find]
      · split
        · rename_i hEq
          subst hEq
          by_cases hk : m.1 = k <;> simp [find, hk]
        · rename_i hNe
          simp only [find, ih]
          by_cases hk : m.1 = k
          · subst hk
            simp [hNe]
          · simp [hk]

theorem find_treeMembers (k : String) (ms entries : Members) :
    find k (treeMembers ms entries) = ((findLast k ms).map Doc.tree).or (find k entries) := by
  induction ms generalizing entries with
  | nil => simp [treeMembers, findLast]
  | cons m ms ih =>
      rw [treeMembers, ih, find_assign, findLast]
      cases findLast k ms with
      | some d => simp
      | none =>
          by_cases hk : m.1 = k <;> simp [hk]

/-- With names that are all different, an entry is found under its name. -/
theorem find_eq_some_of_nodup (hNames : (ms.map Prod.fst).Nodup) (hm : m ∈ ms) :
    find m.1 ms = some m.2 := by
  induction ms with
  | nil => simp at hm
  | cons n ns ih =>
      obtain ⟨hHead, hTail⟩ := List.nodup_cons.mp hNames
      rcases List.mem_cons.mp hm with rfl | hm
      · simp [find]
      · have hNe : n.1 ≠ m.1 := by
          intro hEq
          rw [hEq] at hHead
          exact hHead (List.mem_map_of_mem hm)
        simpa [find, hNe] using ih hTail hm

theorem Sorted.nodup_names (h : Sorted ms) : (ms.map Prod.fst).Nodup := by
  refine List.pairwise_map.mpr (h.imp ?_)
  intro m n hLess hSame
  rw [hSame] at hLess
  exact List.lt_irrefl _ hLess

theorem find_eq_some_of_mem (hSorted : Sorted ms) (hm : m ∈ ms) : find m.1 ms = some m.2 :=
  find_eq_some_of_nodup hSorted.nodup_names hm

/-- A map is listed in one way only. -/
theorem Sorted.eq_of_perm {ns : Members} (hm : Sorted ms) (hn : Sorted ns) (h : ms.Perm ns) :
    ms = ns := by
  refine h.eq_of_pairwise ?_ hm hn
  intro a b _ _ hab hba
  exact absurd (List.lt_trans hab hba) (List.lt_irrefl _)

theorem mem_of_find_eq_some {k : String} {d : Doc} (h : find k ms = some d) : (k, d) ∈ ms := by
  induction ms with
  | nil => simp [find] at h
  | cons m ms ih =>
      unfold find at h
      split at h
      · rename_i hk
        subst hk
        simp only [Option.some.injEq] at h
        subst h
        simp
      · exact List.mem_cons_of_mem _ (ih h)

/-- Maps with the same values under every name are the same. -/
theorem sorted_ext {ns : Members} (hm : Sorted ms) (hn : Sorted ns)
    (h : ∀ k, find k ms = find k ns) : ms = ns := by
  have hMem : ∀ m, m ∈ ms ↔ m ∈ ns := by
    intro m
    constructor
    · intro hm'
      exact mem_of_find_eq_some ((h m.1).symm.trans (find_eq_some_of_mem hm hm'))
    · intro hn'
      exact mem_of_find_eq_some ((h m.1).trans (find_eq_some_of_mem hn hn'))
  have hNodup : ∀ {l : Members}, Sorted l → l.Nodup := fun hl => List.Nodup.of_map _ hl.nodup_names
  exact hm.eq_of_perm hn ((List.perm_ext_iff_of_nodup (hNodup hm) (hNodup hn)).mpr hMem)

/-- A document is a tree when every object in it is listed as a map. -/
def Doc.IsTree (d : Doc) : Prop := d.tree = d

/-- Every entry comes from a member or was there before. -/
theorem mem_treeMembers {entries : Members} (h : m ∈ treeMembers ms entries) :
    m ∈ entries ∨ ∃ n ∈ ms, m = (n.1, n.2.tree) := by
  induction ms generalizing entries with
  | nil => exact Or.inl h
  | cons n ns ih =>
      rcases ih h with h | ⟨o, ho, rfl⟩
      · rcases mem_assign h with rfl | h
        · exact Or.inr ⟨n, by simp, rfl⟩
        · exact Or.inl h
      · exact Or.inr ⟨o, List.mem_cons_of_mem _ ho, rfl⟩

theorem tree_obj (ms : Members) : (Doc.obj ms).tree = .obj (treeMembers ms []) := by
  rw [Doc.tree]

theorem tree_arr (items : List Doc) : (Doc.arr items).tree = .arr (items.map Doc.tree) := by
  rw [Doc.tree, treeItems_eq_map]

/-- A list of trees in the order of their names is its own map. -/
theorem treeMembers_eq_of_find {ts : Members} (hSorted : Sorted ts)
    (h : ∀ k, (findLast k ms).map Doc.tree = find k ts) : treeMembers ms [] = ts := by
  apply sorted_ext (sorted_treeMembers ms (by simp [Sorted])) hSorted
  intro k
  simp [find_treeMembers, find, h]

theorem findLast_eq_find (hSorted : Sorted ms) (k : String) : findLast k ms = find k ms := by
  induction ms with
  | nil => rfl
  | cons m ms ih =>
      obtain ⟨hHead, hTail⟩ := List.pairwise_cons.mp hSorted
      rw [findLast, find, ih hTail]
      by_cases hk : m.1 = k
      · have hNone : find k ms = none := by
          cases hFind : find k ms with
          | none => rfl
          | some d =>
              have hLess := hHead _ (mem_of_find_eq_some hFind)
              rw [hk] at hLess
              exact absurd hLess (List.lt_irrefl _)
        simp [hNone, hk]
      · cases find k ms <;> simp [hk]

/-- Taking the tree twice changes nothing. -/
theorem isTree_tree (d : Doc) : d.tree.IsTree := by
  induction d using Doc.induct with
  | null => rfl
  | bool b => rfl
  | num n => rfl
  | str s => rfl
  | arr items ih =>
      unfold Doc.IsTree
      rw [tree_arr, tree_arr, List.map_map]
      congr 1
      exact List.map_congr_left fun d hd => ih d hd
  | obj members ih =>
      unfold Doc.IsTree
      rw [tree_obj, tree_obj]
      congr 1
      have hSorted : Sorted (treeMembers members []) := sorted_treeMembers members (by simp [Sorted])
      apply treeMembers_eq_of_find hSorted
      intro k
      rw [findLast_eq_find hSorted]
      cases hFind : find k (treeMembers members []) with
      | none => rfl
      | some d =>
          rcases mem_treeMembers (mem_of_find_eq_some hFind) with h | ⟨n, hn, hEq⟩
          · simp at h
          · obtain ⟨rfl, rfl⟩ := Prod.mk.inj hEq
            exact congrArg some (ih n hn)

theorem height_tree_le (d : Doc) : d.tree.height ≤ d.height := by
  induction d using Doc.induct with
  | null => exact Nat.le_refl _
  | bool b => exact Nat.le_refl _
  | num n => exact Nat.le_refl _
  | str s => exact Nat.le_refl _
  | arr items ih =>
      rw [tree_arr, Doc.height, Doc.height]
      apply Nat.succ_le_succ
      apply Doc.heightItems_le
      intro d hd
      obtain ⟨e, he, rfl⟩ := List.mem_map.mp hd
      exact Nat.le_trans (ih e he) (Doc.height_le_of_mem_items (Nat.le_refl _) e he)
  | obj members ih =>
      rw [tree_obj, Doc.height, Doc.height]
      apply Nat.succ_le_succ
      apply Doc.heightMembers_le
      intro m hm
      rcases mem_treeMembers hm with h | ⟨n, hn, rfl⟩
      · simp at h
      · exact Nat.le_trans (ih n hn) (Doc.height_le_of_mem_members (Nat.le_refl _) n hn)

mutual

/-- No `null` anywhere. -/
def Doc.nullFree : Doc → Bool
  | .null => false
  | .arr items => nullFreeItems items
  | .obj members => nullFreeMembers members
  | _ => true

def nullFreeItems : List Doc → Bool
  | [] => true
  | d :: ds => d.nullFree && nullFreeItems ds

def nullFreeMembers : Members → Bool
  | [] => true
  | m :: ms => m.2.nullFree && nullFreeMembers ms

end

theorem nullFreeItems_iff (items : List Doc) :
    nullFreeItems items = true ↔ ∀ d ∈ items, d.nullFree = true := by
  induction items with
  | nil => simp [nullFreeItems]
  | cons d ds ih => simp [nullFreeItems, ih]

theorem nullFreeMembers_iff (members : Members) :
    nullFreeMembers members = true ↔ ∀ m ∈ members, m.2.nullFree = true := by
  induction members with
  | nil => simp [nullFreeMembers]
  | cons m ms ih => simp [nullFreeMembers, ih]

/-- The tree has no values that the document has not. -/
theorem nullFree_tree {d : Doc} : d.nullFree = true → d.tree.nullFree = true := by
  induction d using Doc.induct with
  | null | bool | num | str => exact id
  | arr items ih =>
      intro h
      rw [tree_arr, Doc.nullFree, nullFreeItems_iff]
      intro d hd
      obtain ⟨e, he, rfl⟩ := List.mem_map.mp hd
      exact ih e he ((nullFreeItems_iff items).mp h e he)
  | obj members ih =>
      intro h
      rw [tree_obj, Doc.nullFree, nullFreeMembers_iff]
      intro m hm
      rcases mem_treeMembers hm with hm | ⟨n, hn, rfl⟩
      · simp at hm
      · exact ih n hn ((nullFreeMembers_iff members).mp h n hn)

end Json
