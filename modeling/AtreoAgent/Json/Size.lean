import AtreoAgent.Json.Tree
import Mathlib.Algebra.GroupWithZero.Nat
import Mathlib.Algebra.Order.BigOperators.Group.List
import Mathlib.Algebra.Order.Group.Nat
import Mathlib.Data.List.Nodup

/-! How long the text of a document is at least. -/
namespace Json

open Codec

/-- A length that no text of the document is below. -/
def Doc.least : Doc → Nat
  | .str s => (chars s).length + 2
  | .num _ => 1
  | _ => 2

theorem length_printString (html : Bool) (s : String) :
    (chars s).length + 2 ≤ (printString html s).length := by
  have hChars : ∀ cs : List Char, cs.length ≤ (cs.flatMap (printChar html)).length := by
    intro cs
    induction cs with
    | nil => simp
    | cons c cs ih =>
        have hChar : 1 ≤ (printChar html c).length := by
          unfold printChar
          split_ifs <;> simp [unicodeEscape, Nat.succ_le_iff, Char.utf8Size_pos]
        rw [List.flatMap_cons, List.length_append, List.length_cons]
        omega
  have hText := hChars (chars s)
  simp only [printString, List.length_cons, List.length_append, List.length_nil]
  omega

theorem Number.length_pos (n : Number) : 1 ≤ n.lit.length := by
  cases hLit : n.lit with
  | nil =>
      have hNumber := n.wellFormed
      rw [hLit] at hNumber
      cases hNumber
  | cons b bs => simp

theorem Doc.least_le (html : Bool) (d : Doc) : d.least ≤ (d.print html).length := by
  cases d with
  | str s =>
      rw [Doc.print]
      exact length_printString html s
  | num n =>
      rw [Doc.print]
      exact n.length_pos
  | bool b => cases b <;> simp [Doc.least, Doc.print]
  | _ => simp [Doc.least, Doc.print]

/-- What a member takes at least: its name in quotes, a colon and its value. -/
def memberLeast (m : String × Doc) : Nat := (chars m.1).length + 3 + m.2.least

theorem sum_memberLeast_le (html : Bool) (ms : Members) :
    (ms.map memberLeast).sum ≤ (printMembers html ms).length := by
  induction ms with
  | nil => simp [printMembers]
  | cons m ms ih =>
      have hName := length_printString html m.1
      have hValue := m.2.least_le html
      cases ms with
      | nil =>
          simp only [List.map_cons, List.map_nil, List.sum_cons, List.sum_nil, memberLeast,
            printMembers, List.length_append, List.length_cons]
          omega
      | cons n ns =>
          rw [List.map_cons, List.sum_cons, printMembers_cons_cons]
          simp only [memberLeast, List.length_append, List.length_cons]
          omega

/-- The text of an object is at least as long as some of its members, under different
names, and the braces. -/
theorem sum_picked_le (html : Bool) {ms picked : Members}
    (hNames : (picked.map Prod.fst).Nodup)
    (hPicked : ∀ p ∈ picked, (findLast p.1 ms).map Doc.tree = some p.2) :
    (picked.map memberLeast).sum + 2 ≤ ((Doc.obj ms).tree.print html).length := by
  have hSubset : picked ⊆ treeMembers ms [] := by
    intro p hp
    apply mem_of_find_eq_some
    rw [find_treeMembers, hPicked p hp, Option.some_or]
  obtain ⟨ps, hPerm, hSublist⟩ := List.subperm_of_subset (List.Nodup.of_map _ hNames) hSubset
  have hSum : (picked.map memberLeast).sum ≤ ((treeMembers ms []).map memberLeast).sum := by
    rw [← (hPerm.map memberLeast).sum_eq]
    exact (hSublist.map memberLeast).sum_le_sum fun _ _ => Nat.zero_le _
  have hText := sum_memberLeast_le html (treeMembers ms [])
  rw [tree_obj, Doc.print]
  simp only [List.length_cons, List.length_append, List.length_nil]
  omega

end Json
