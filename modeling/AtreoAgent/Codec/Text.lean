import AtreoAgent.Codec.Utf8
import Mathlib.Data.List.TakeWhile

/-! Trimming, cutting and lower-casing of texts, and texts that start with a tag. Which letters
have a lower case depends on the version of Unicode, so the mapping of single characters
is a parameter. -/
namespace Codec

/-- White space of Unicode. -/
def isWhite (c : Char) : Bool :=
  c.toNat ∈ [0x20, 0x85, 0xA0, 0x1680, 0x2028, 0x2029, 0x202F, 0x205F, 0x3000] ||
    (0x09 ≤ c.toNat && c.toNat ≤ 0x0D) || (0x2000 ≤ c.toNat && c.toNat ≤ 0x200A)

/-- The text without white space at either end. -/
def trimSpace (s : String) : String :=
  String.ofList (((chars s).dropWhile isWhite).reverse.dropWhile isWhite).reverse

variable {s : String} {sep : Char}

theorem trimSpace_of_no_white (h : ∀ c ∈ chars s, isWhite c = false) : trimSpace s = s := by
  have hKeeps : ∀ cs : List Char, (∀ c ∈ cs, isWhite c = false) → cs.dropWhile isWhite = cs := by
    intro cs hcs
    cases cs with
    | nil => rfl
    | cons c cs => exact List.dropWhile_cons_of_neg (by simp [hcs c])
  rw [trimSpace, hKeeps _ h, hKeeps _ (by simpa using h), List.reverse_reverse]
  simp

def toLower (lower : Char → Char) (s : String) : String := String.ofList ((chars s).map lower)

theorem toLower_of_fixed {lower : Char → Char} (h : ∀ c ∈ chars s, lower c = c) :
    toLower lower s = s := by
  rw [toLower, List.map_congr_left h]
  simp

/-- The text without the given beginning, if it has it. -/
def trimStart (start s : String) : String :=
  if (chars start).isPrefixOf (chars s) then String.ofList ((chars s).drop (chars start).length)
  else s

/-- The text without the given end, if it has it. -/
def trimEnd (ending s : String) : String :=
  if (chars ending).isSuffixOf (chars s) then
    String.ofList ((chars s).take ((chars s).length - (chars ending).length))
  else s

/-- The text up to the first separator, all of it if there is none. -/
def before (sep : Char) (s : String) : String := String.ofList ((chars s).takeWhile (· ≠ sep))

/-- The text behind the first separator, empty if there is none. -/
def after (sep : Char) (s : String) : String :=
  String.ofList (((chars s).dropWhile (· ≠ sep)).drop 1)

theorem all_ne_of_not_mem {cs : List Char} (h : sep ∉ cs) : ∀ c ∈ cs, decide (c ≠ sep) = true := by
  intro c hc
  rw [decide_eq_true_eq]
  rintro rfl
  exact h hc

theorem mem_of_after_ne (h : after sep s ≠ "") : sep ∈ chars s := by
  by_contra hNone
  refine h ?_
  rw [after, List.dropWhile_eq_nil_iff.mpr (all_ne_of_not_mem hNone)]
  rfl

/-- What stands behind a separator does not matter for the text before the first one. -/
theorem before_append (sep : Char) (s t : String) :
    before sep (s ++ (String.singleton sep ++ t)) = before sep s := by
  have hText : chars (s ++ (String.singleton sep ++ t)) = chars s ++ sep :: chars t := by simp
  rw [before, hText, List.takeWhile_append, before]
  split
  next hAll =>
    rw [(List.takeWhile_prefix _).eq_of_length hAll]
    simp
  · rfl

/-- The first separator cuts a text in two. -/
theorem eq_append_iff {a b : String} :
    s = a ++ (String.singleton sep ++ b) ∧ sep ∉ chars a ↔
      sep ∈ chars s ∧ before sep s = a ∧ after sep s = b := by
  simp only [chars_eq, before, after, ← String.toList_inj, String.toList_ofList,
    String.toList_append, String.toList_singleton, List.singleton_append]
  constructor
  · rintro ⟨hText, hNone⟩
    have hAll := all_ne_of_not_mem hNone
    rw [hText, List.takeWhile_append_of_pos hAll, List.dropWhile_append_of_pos hAll]
    simp
  · rintro ⟨hMem, hBefore, hAfter⟩
    refine ⟨?_, ?_⟩
    · cases hRest : s.toList.dropWhile (· ≠ sep) with
      | nil =>
          have hAll := List.dropWhile_eq_nil_iff.mp hRest sep hMem
          simp at hAll
      | cons c rest =>
          have hHead : c = sep := by
            have hFirst := List.head?_dropWhile_not (· ≠ sep) s.toList
            rw [hRest] at hFirst
            simpa using hFirst
          rw [hRest, List.drop_one, List.tail_cons] at hAfter
          subst hHead
          rw [← hBefore, ← hAfter, ← hRest, List.takeWhile_append_dropWhile]
    · intro hIn
      rw [← hBefore] at hIn
      have hNe := List.mem_takeWhile_imp hIn
      simp at hNe

/-- No tag begins another, so that the tag of a text can be read off. -/
def Separates {α β : Type} (tag : α → List β) : Prop := ∀ a b, tag a <+: tag b → a = b

theorem Separates.append_inj {α β : Type} {tag : α → List β} (h : Separates tag) {a b : α}
    {x y : List β} (hEq : tag a ++ x = tag b ++ y) : a = b ∧ x = y := by
  have hFirst : tag a <+: tag b ++ y := hEq ▸ List.prefix_append (tag a) x
  have hTag : a = b := by
    rcases List.prefix_or_prefix_of_prefix hFirst (List.prefix_append (tag b) y) with hLe | hGe
    · exact h a b hLe
    · exact (h b a hGe).symm
  subst hTag
  exact ⟨rfl, List.append_cancel_left hEq⟩

end Codec
