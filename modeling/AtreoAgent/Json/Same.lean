import AtreoAgent.Json.Tree

/-! When two documents have the same tree, said without reference to an order of the
names: an object is the finite map that takes each name to the value of the last member
with that name. -/
namespace Json

/-- The documents decode to the same tree. -/
inductive Doc.Same : Doc → Doc → Prop where
  | null : Same .null .null
  | bool (b : Bool) : Same (.bool b) (.bool b)
  | num (n : Number) : Same (.num n) (.num n)
  | str (s : String) : Same (.str s) (.str s)
  | arr {ds es : List Doc} (hLength : ds.length = es.length)
      (hItems : ∀ (i : Nat) (d e : Doc), ds[i]? = some d → es[i]? = some e → Same d e) :
      Same (.arr ds) (.arr es)
  | obj {ms ns : Members} (hNames : ∀ k, findLast k ms = none ↔ findLast k ns = none)
      (hValues : ∀ k d e, findLast k ms = some d → findLast k ns = some e → Same d e) :
      Same (.obj ms) (.obj ns)

theorem mem_of_findLast_eq_some {ms : Members} {k : String} {d : Doc} (h : findLast k ms = some d) :
    (k, d) ∈ ms := by
  induction ms with
  | nil => cases h
  | cons m ms ih =>
      rw [findLast, Option.or_eq_some_iff] at h
      rcases h with hLater | ⟨_, hHere⟩
      · exact List.mem_cons_of_mem _ (ih hLater)
      · split at hHere
        next hName =>
          cases hHere
          rw [← hName]
          exact List.mem_cons_self
        next => cases hHere

/-- A map is determined by the last members. -/
theorem treeMembers_eq_iff {ms ns : Members} :
    treeMembers ms [] = treeMembers ns [] ↔
      ∀ k, (findLast k ms).map Doc.tree = (findLast k ns).map Doc.tree := by
  have hFind : ∀ (k : String) (ms : Members),
      find k (treeMembers ms []) = (findLast k ms).map Doc.tree := by
    intro k ms
    rw [find_treeMembers, find, Option.or_none]
  have hSorted : ∀ ms : Members, Sorted (treeMembers ms []) := fun ms =>
    sorted_treeMembers ms List.Pairwise.nil
  constructor
  · intro h k
    rw [← hFind, ← hFind, h]
  · intro h
    exact sorted_ext (hSorted ms) (hSorted ns) fun k => by rw [hFind, hFind, h]

theorem Doc.Same.tree_eq {d e : Doc} (h : d.Same e) : d.tree = e.tree := by
  induction h with
  | null => rfl
  | bool b => rfl
  | num n => rfl
  | str s => rfl
  | @arr ds es hLength hItems ih =>
      rw [tree_arr, tree_arr]
      congr 1
      apply List.ext_getElem?
      intro i
      rw [List.getElem?_map, List.getElem?_map]
      by_cases hi : i < ds.length
      · have hFirst := List.getElem?_eq_getElem hi
        have hSecond := List.getElem?_eq_getElem (hLength ▸ hi)
        rw [hFirst, hSecond, Option.map_some, Option.map_some, ih i _ _ hFirst hSecond]
      · rw [List.getElem?_eq_none (Nat.not_lt.mp hi),
          List.getElem?_eq_none (hLength ▸ Nat.not_lt.mp hi)]
  | @obj ms ns hNames hValues ih =>
      rw [tree_obj, tree_obj, treeMembers_eq_iff.mpr]
      intro k
      cases hFirst : findLast k ms with
      | none => rw [(hNames k).mp hFirst]
      | some d =>
          cases hSecond : findLast k ns with
          | none =>
              rw [(hNames k).mpr hSecond] at hFirst
              cases hFirst
          | some e => rw [Option.map_some, Option.map_some, ih k d e hFirst hSecond]

theorem same_of_tree_eq {d : Doc} : ∀ {e : Doc}, d.tree = e.tree → d.Same e := by
  -- The tree keeps the kind of value, so only pairs of one kind are left.
  induction d using Doc.induct with
  | null =>
      intro e h
      cases e <;> simp only [Doc.tree, reduceCtorEq] at h
      exact .null
  | bool b =>
      intro e h
      cases e <;> simp only [Doc.tree, reduceCtorEq, Doc.bool.injEq] at h
      subst h
      exact .bool b
  | num n =>
      intro e h
      cases e <;> simp only [Doc.tree, reduceCtorEq, Doc.num.injEq] at h
      subst h
      exact .num n
  | str s =>
      intro e h
      cases e <;> simp only [Doc.tree, reduceCtorEq, Doc.str.injEq] at h
      subst h
      exact .str s
  | arr ds ih =>
      intro e h
      cases e <;> simp only [Doc.tree, reduceCtorEq, Doc.arr.injEq] at h
      next es =>
        rw [treeItems_eq_map, treeItems_eq_map] at h
        refine .arr (by simpa using congrArg List.length h) fun i d e hd he => ?_
        have hItem := congrArg (·[i]?) h
        simp only [List.getElem?_map, hd, he, Option.map_some, Option.some.injEq] at hItem
        exact ih d (List.mem_of_getElem? hd) hItem
  | obj ms ih =>
      intro e h
      cases e <;> simp only [Doc.tree, reduceCtorEq, Doc.obj.injEq] at h
      next ns =>
        have hLast := treeMembers_eq_iff.mp h
        refine .obj (fun k => ?_) fun k d e hd he => ?_
        · rw [← Option.map_eq_none_iff (f := Doc.tree), hLast k, Option.map_eq_none_iff]
        · have hValue := hLast k
          rw [hd, he, Option.map_some, Option.map_some, Option.some.injEq] at hValue
          exact ih (k, d) (mem_of_findLast_eq_some hd) hValue

end Json
