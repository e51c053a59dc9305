import AtreoAgent.Canonjson
import AtreoAgent.Json.Recognise

/-! Which documents `MarshalRaw` accepts. The rules of the package ask for one
well-formed value without `null` and nothing after it. The decoder's `More` does
not take a closing bracket for trailing data, and a `null` whose name occurs again
never reaches the tree. -/
namespace Canonjson

open Codec Json

/-- One value without `null`, nested within the limit, and white space around it. -/
def Signable (p : Bytes) : Prop := Derives false .element maxNestingDepth p

/-- A value with no `null` in its tree, and a closing bracket or brace behind it. -/
def StrayClose (p : Bytes) : Prop :=
  ∃ d rest b tail, parse p = some (d, rest) ∧ skipSpace rest = b :: tail ∧
    (b = 0x5d ∨ b = 0x7d) ∧ d.tree.nullFree = true

/-- A value whose `null`s all stand under names that are given again. -/
def HiddenNull (p : Bytes) : Prop :=
  ∃ d, parseWhole p = some d ∧ d.nullFree = false ∧ d.tree.nullFree = true

theorem parseWhole_eq_some_iff {p : Bytes} {d : Doc} :
    parseWhole p = some d ↔ ∃ rest, parse p = some (d, rest) ∧ skipSpace rest = [] := by
  simp only [parseWhole, Option.bind_eq_some_iff, Option.ite_none_right_eq_some,
    Option.some.injEq, Prod.exists]
  constructor
  · rintro ⟨e, rest, hParse, hRest, rfl⟩
    exact ⟨rest, hParse, hRest⟩
  · rintro ⟨rest, hParse, hRest⟩
    exact ⟨d, rest, hParse, hRest, rfl⟩

theorem more_eq_false_iff {rest : Bytes} :
    more rest = false ↔ skipSpace rest = [] ∨
      ∃ b tail, skipSpace rest = b :: tail ∧ (b = 0x5d ∨ b = 0x7d) := by
  unfold more
  cases skipSpace rest with
  | nil => simp
  | cons b tail => by_cases hBracket : b = 0x5d <;> by_cases hBrace : b = 0x7d <;> simp [hBracket, hBrace]

theorem signable_iff {p : Bytes} :
    Signable p ↔ ∃ d, parseWhole p = some d ∧ d.nullFree = true := by
  rw [Signable, derives_element_iff]
  simp

/-- The three kinds of documents that `MarshalRaw` accepts. -/
theorem exists_marshalRaw_iff {p : Bytes} :
    (∃ c, marshalRaw p = .ok c) ↔ Signable p ∨ StrayClose p ∨ HiddenNull p := by
  rw [signable_iff]
  constructor
  · rintro ⟨c, hc⟩
    obtain ⟨d, rest, hParse, hMore, hNull, -⟩ := marshalRaw_eq_ok_iff.mp hc
    rcases more_eq_false_iff.mp hMore with hRest | ⟨b, tail, hRest, hb⟩
    · have hWhole := parseWhole_eq_some_iff.mpr ⟨rest, hParse, hRest⟩
      cases hDoc : d.nullFree with
      | true => exact Or.inl ⟨d, hWhole, hDoc⟩
      | false => exact Or.inr (Or.inr ⟨d, hWhole, hDoc, hNull⟩)
    · exact Or.inr (Or.inl ⟨d, rest, b, tail, hParse, hRest, hb, hNull⟩)
  · have hOk : ∀ {d rest}, parse p = some (d, rest) → more rest = false → d.tree.nullFree = true →
        ∃ c, marshalRaw p = .ok c :=
      fun hParse hMore hNull => ⟨_, marshalRaw_eq_ok_iff.mpr ⟨_, _, hParse, hMore, hNull, rfl⟩⟩
    rintro (⟨d, hWhole, hNull⟩ | ⟨d, rest, b, tail, hParse, hRest, hb, hNull⟩ | ⟨d, hWhole, -, hNull⟩)
    · obtain ⟨rest, hParse, hRest⟩ := parseWhole_eq_some_iff.mp hWhole
      exact hOk hParse (more_eq_false_iff.mpr (Or.inl hRest)) (nullFree_tree hNull)
    · exact hOk hParse (more_eq_false_iff.mpr (Or.inr ⟨b, tail, hRest, hb⟩)) hNull
    · obtain ⟨rest, hParse, hRest⟩ := parseWhole_eq_some_iff.mp hWhole
      exact hOk hParse (more_eq_false_iff.mpr (Or.inl hRest)) hNull

/-- `MarshalRaw` accepts exactly the signable documents, but for a closing bracket
that follows the value and a `null` under a name that is given again. -/
theorem marshalRaw_signable_iff (p : Bytes) :
    ((∃ c, marshalRaw p = .ok c) ↔ Signable p) ↔ ¬ StrayClose p ∧ ¬ HiddenNull p := by
  have hStray : StrayClose p → ¬ Signable p := by
    rintro ⟨d, rest, b, tail, hParse, hClose, -, -⟩ hSignable
    obtain ⟨e, hWhole, -⟩ := signable_iff.mp hSignable
    obtain ⟨rest', hParse', hRest⟩ := parseWhole_eq_some_iff.mp hWhole
    obtain ⟨-, rfl⟩ := Prod.mk.inj (Option.some.inj (hParse.symm.trans hParse'))
    rw [hRest] at hClose
    cases hClose
  have hHidden : HiddenNull p → ¬ Signable p := by
    rintro ⟨d, hWhole, hNull, -⟩ hSignable
    obtain ⟨e, hWhole', hNull'⟩ := signable_iff.mp hSignable
    obtain rfl := Option.some.inj (hWhole.symm.trans hWhole')
    rw [hNull] at hNull'
    cases hNull'
  rw [exists_marshalRaw_iff]
  tauto

theorem not_signable_of_parseWhole {p : Bytes}
    (h : (parseWhole p).map Doc.nullFree ≠ some true) : ¬ Signable p := by
  intro hSignable
  obtain ⟨d, hWhole, hNull⟩ := signable_iff.mp hSignable
  exact h (by rw [hWhole, Option.map_some, hNull])

/-- `1]`, and an object that gives one name a `null` and then a number. -/
theorem unsignable_accepted :
    (marshalRaw (utf8 "1]") = .ok (utf8 "1") ∧ ¬ Signable (utf8 "1]")) ∧
    marshalRaw (utf8 "\x7b\"a\":null,\"a\":1\x7d") = .ok (utf8 "\x7b\"a\":1\x7d") ∧
      ¬ Signable (utf8 "\x7b\"a\":null,\"a\":1\x7d") := by
  refine ⟨⟨by decide +kernel, ?_⟩, by decide +kernel, ?_⟩
  · exact not_signable_of_parseWhole (by decide +kernel)
  · exact not_signable_of_parseWhole (by decide +kernel)

end Canonjson
