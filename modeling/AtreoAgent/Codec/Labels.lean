import AtreoAgent.Codec.Utf8
import Mathlib.Data.List.Infix

/-! Parts of a text between separators. A part is found by searching for it with a separator on
either side, in the text with a separator on either side. -/
namespace Codec

theorem cons_intercalate {α : Type} (sep : α) {parts : List (List α)} (h : parts ≠ []) :
    sep :: [sep].intercalate parts = parts.flatMap (sep :: ·) := by
  induction parts with
  | nil => exact absurd rfl h
  | cons part parts ih =>
      cases parts with
      | nil => simp
      | cons next parts =>
          rw [List.intercalate_cons_cons, List.flatMap_cons, ← ih (by simp)]
          simp

theorem intercalate_concat {α : Type} (sep : α) {parts : List (List α)} (h : parts ≠ [])
    (part : List α) :
    [sep].intercalate (parts ++ [part]) = [sep].intercalate parts ++ sep :: part := by
  apply List.cons_injective (a := sep)
  rw [cons_intercalate sep (by simp), List.flatMap_append, ← cons_intercalate sep h]
  simp

/-- The parts of a list are what stands in it between two separators. -/
theorem bounded_infix_iff {α : Type} [DecidableEq α] {sep : α} {part l : List α}
    (hPart : part ≠ []) (hSep : sep ∉ part) :
    sep :: (part ++ [sep]) <:+: sep :: (l ++ [sep]) ↔ part ∈ l.splitOn sep := by
  constructor
  · rintro ⟨u, v, h⟩
    have hFound : (u ++ sep :: (part ++ sep :: v)).splitOn sep =
        u.splitOn sep ++ part :: v.splitOn sep := by
      rw [List.splitOn_append_cons_self, List.splitOn_append_cons_self,
        List.splitOn_eq_singleton hSep, List.singleton_append]
    have hWhole : ([] ++ sep :: (l ++ sep :: [])).splitOn sep = [] :: (l.splitOn sep ++ [[]]) := by
      rw [List.splitOn_append_cons_self, List.splitOn_append_cons_self,
        List.splitOn_eq_singleton List.not_mem_nil, List.singleton_append]
    have hSame : u ++ sep :: (part ++ sep :: v) = [] ++ sep :: (l ++ sep :: []) := by
      simpa using h
    have hMem : part ∈ [] :: (l.splitOn sep ++ [[]]) := by
      rw [← hWhole, ← hSame, hFound]
      simp
    simpa [hPart] using hMem
  · intro hMem
    obtain ⟨xs, ys, hParts⟩ := List.append_of_mem hMem
    have hText : sep :: l = (xs ++ part :: ys).flatMap (sep :: ·) := by
      rw [← cons_intercalate sep (by simp), ← hParts, List.intercalate_splitOn]
    -- The separator behind the part is that of the next one, or the last of all.
    obtain ⟨v, hNext⟩ : ∃ v, ys.flatMap (sep :: ·) ++ [sep] = sep :: v := by
      cases ys with
      | nil => exact ⟨[], rfl⟩
      | cons y ys => exact ⟨y ++ (ys.flatMap (sep :: ·) ++ [sep]), by simp⟩
    refine ⟨xs.flatMap (sep :: ·), v, ?_⟩
    calc xs.flatMap (sep :: ·) ++ sep :: (part ++ [sep]) ++ v
        = xs.flatMap (sep :: ·) ++ sep :: (part ++ (sep :: v)) := by simp
      _ = (xs ++ part :: ys).flatMap (sep :: ·) ++ [sep] := by simp [← hNext]
      _ = sep :: (l ++ [sep]) := by rw [← hText, List.cons_append]

/-- `strings.Contains` -/
def contains (s sub : String) : Bool := decide (chars sub <:+: chars s)

/-- The labels of a name. -/
def labels (name : String) : List String := ((chars name).splitOn '.').map String.ofList

/-- Searching with dots on either side finds whole labels only. -/
theorem contains_dots_iff {name label : String} (hLabel : label ≠ "") (hDot : '.' ∉ chars label) :
    contains ("." ++ name ++ ".") ("." ++ label ++ ".") = true ↔ label ∈ labels name := by
  have hDots : ∀ s : String, chars ("." ++ s ++ ".") = '.' :: (chars s ++ ['.']) := by
    intro s
    simp
  have hChars : chars label ≠ [] := by simpa using hLabel
  rw [contains, decide_eq_true_eq, hDots, hDots, bounded_infix_iff hChars hDot, labels,
    List.mem_map]
  constructor
  · intro hMem
    exact ⟨chars label, hMem, by simp⟩
  · rintro ⟨part, hMem, rfl⟩
    simpa using hMem

end Codec
