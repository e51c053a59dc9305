import AtreoAgent.Canonjson

/-! Which characters `writeString` escapes. RFC 8785 escapes what JSON requires and
nothing else; the encoder behind `writeString` escapes the two line separators
U+2028 and U+2029 as well, whatever is said about HTML. -/
namespace Canonjson

open Codec Json

/-- One character by RFC 8785: the short escapes, `\u00xx` in lower case for the
other control characters, a quote and a backslash escaped, and UTF-8 for the rest. -/
def requiredEscape (c : Char) : Bytes :=
  if c.toNat < 0x20 then
    match c with
    | '\x08' => utf8 "\\b"
    | '\t' => utf8 "\\t"
    | '\n' => utf8 "\\n"
    | '\x0c' => utf8 "\\f"
    | '\r' => utf8 "\\r"
    | c => utf8 "\\u00" ++ [hexDigit (c.toNat / 16), hexDigit (c.toNat % 16)]
  else if c = '"' ∨ c = '\\' then 0x5c :: String.utf8EncodeChar c
  else String.utf8EncodeChar c

/-- A string as an independent RFC 8785 signer writes it. -/
def canonicalString (s : String) : Bytes := 0x22 :: (s.toList.flatMap requiredEscape ++ [0x22])

/-- U+2028 and U+2029. -/
def isLineSeparator (c : Char) : Bool := c.toNat = 0x2028 || c.toNat = 0x2029

theorem printChar_control {c : Char} (h : c.toNat < 0x20) : printChar false c = requiredEscape c := by
  have hAll : ∀ i : Fin 32, printChar false (Char.ofNat i.val) = requiredEscape (Char.ofNat i.val) := by
    decide
  have hChar := hAll ⟨c.toNat, h⟩
  rwa [Char.ofNat_toNat] at hChar

/-- Above the control characters only the line separators are written otherwise. -/
theorem printChar_plain {c : Char} (hControl : ¬ c.toNat < 0x20) (hQuote : c ≠ '"')
    (hBackslash : c ≠ '\\') :
    printChar false c =
      if isLineSeparator c then unicodeEscape c.toNat else String.utf8EncodeChar c := by
  have hShort : ∀ d : Char, d.toNat < 0x20 → c ≠ d := by
    rintro d hd rfl
    exact hControl hd
  rw [printChar, if_neg hQuote, if_neg hBackslash, if_neg (hShort _ (by decide)),
    if_neg (hShort _ (by decide)), if_neg (hShort _ (by decide)), if_neg (hShort _ (by decide)),
    if_neg (hShort _ (by decide))]
  simp [isLineSeparator, hControl]

/-- The encoder writes the required escapes, and longer text for a line separator. -/
theorem printChar_required (c : Char) :
    (isLineSeparator c = false ∧ printChar false c = requiredEscape c) ∨
    (isLineSeparator c = true ∧ (requiredEscape c).length < (printChar false c).length) := by
  by_cases hControl : c.toNat < 0x20
  · left
    refine ⟨?_, printChar_control hControl⟩
    simp only [isLineSeparator, Bool.or_eq_false_iff, decide_eq_false_iff_not]
    omega
  by_cases hQuote : c = '"'
  · subst c
    exact Or.inl ⟨rfl, by decide⟩
  by_cases hBackslash : c = '\\'
  · subst c
    exact Or.inl ⟨rfl, by decide⟩
  have hRequired : requiredEscape c = String.utf8EncodeChar c := by
    unfold requiredEscape
    rw [if_neg hControl, if_neg (not_or.mpr ⟨hQuote, hBackslash⟩)]
  rw [printChar_plain hControl hQuote hBackslash, hRequired]
  cases isLineSeparator c with
  | false => exact Or.inl ⟨rfl, rfl⟩
  | true =>
      right
      refine ⟨rfl, ?_⟩
      have hSize := c.utf8Size_le_four
      rw [String.length_utf8EncodeChar, if_pos rfl, unicodeEscape]
      simp only [List.length_cons, List.length_nil]
      omega

/-- Texts put together from parts, of which none gets shorter, agree only part by part. -/
theorem flatMap_eq_iff {α β : Type} {f g : α → List β}
    (h : ∀ a, f a = g a ∨ (g a).length < (f a).length) (as : List α) :
    as.flatMap f = as.flatMap g ↔ ∀ a ∈ as, f a = g a := by
  have hLength : ∀ as : List α, (as.flatMap g).length ≤ (as.flatMap f).length := by
    intro as
    induction as with
    | nil => exact Nat.le_refl _
    | cons a as ih =>
        simp only [List.flatMap_cons, List.length_append]
        rcases h a with hEq | hLt
        · rw [hEq]
          omega
        · omega
  induction as with
  | nil => simp
  | cons a as ih =>
      rw [List.forall_mem_cons, List.flatMap_cons, List.flatMap_cons]
      constructor
      · intro hEq
        rcases h a with hPart | hLt
        · rw [hPart] at hEq
          exact ⟨hPart, ih.mp (List.append_cancel_left hEq)⟩
        · have hTotal := congrArg List.length hEq
          have hTail := hLength as
          simp only [List.length_append] at hTotal
          omega
      · rintro ⟨hPart, hTail⟩
        rw [hPart, ih.mpr hTail]

/-- `writeString` writes what RFC 8785 asks for exactly if the text has no line separator. -/
theorem writeString_canonical_iff (s : String) :
    writeString s = canonicalString s ↔ ∀ c ∈ s.toList, isLineSeparator c = false := by
  have hParts : ∀ c, printChar false c = requiredEscape c ∨
      (requiredEscape c).length < (printChar false c).length :=
    fun c => (printChar_required c).imp And.right And.right
  have hText : writeString s = canonicalString s ↔
      ∀ c ∈ s.toList, printChar false c = requiredEscape c := by
    rw [writeString_eq, printString, canonicalString, chars_eq, List.cons.injEq,
      List.append_left_inj, flatMap_eq_iff hParts]
    exact and_iff_right rfl
  rw [hText]
  refine forall₂_congr fun c _ => ?_
  rcases printChar_required c with ⟨hPlain, hEq⟩ | ⟨hSeparator, hLt⟩
  · simp only [hPlain, hEq]
  · simp only [hSeparator, Bool.true_eq_false, iff_false]
    intro hEq
    rw [hEq] at hLt
    exact Nat.lt_irrefl _ hLt

/-- U+2028 alone: six octets of escape where the RFC has three of UTF-8. -/
theorem line_separator_escaped :
    writeString "\u2028" = utf8 "\"\\u2028\"" ∧
      canonicalString "\u2028" = [0x22, 0xe2, 0x80, 0xa8, 0x22] ∧
      writeString "\u2028" ≠ canonicalString "\u2028" := by
  decide +kernel

end Canonjson
