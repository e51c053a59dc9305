import AtreoAgent.Json.Recognise

/-! Indented output. An object of strings is written with one member a line, indented by two
blanks, and read back as the object. -/
namespace Json

open Codec

/-- A member on a line of its own. -/
def indentMember (m : String × String) : Bytes :=
  [0x0a, 0x20, 0x20] ++ (printString true m.1 ++ ([0x3a, 0x20] ++ printString true m.2))

def indentMembers : List (String × String) → Bytes
  | [] => []
  | [m] => indentMember m
  | m :: ms => indentMember m ++ 0x2c :: indentMembers ms

/-- `json.MarshalIndent` of a struct of strings. -/
def printIndented (ms : List (String × String)) : Bytes :=
  0x7b :: (indentMembers ms ++ [0x0a, 0x7d])

def textMembers (ms : List (String × String)) : List (String × Doc) :=
  ms.map fun m => (m.1, .str m.2)

theorem indentMembers_cons_cons (m n : String × String) (ms : List (String × String)) :
    indentMembers (m :: n :: ms) = indentMember m ++ 0x2c :: indentMembers (n :: ms) := by
  rw [indentMembers]
  simp

theorem spaces_newline : Spaces [0x0a, 0x20, 0x20] := by
  simp [Spaces, isSpace]

/-- A line starts with white space and a quotation mark. -/
theorem skipSpace_indentMember (m : String × String) (rest : Bytes) :
    skipSpace (indentMember m ++ rest) = 0x22 :: ((chars m.1).flatMap (printChar true) ++
      0x22 :: 0x3a :: 0x20 :: (printString true m.2 ++ rest)) := by
  rw [indentMember, List.append_assoc, skipSpace_spaces spaces_newline, printString]
  simp only [List.cons_append, List.nil_append, List.append_assoc]
  exact skipSpace_cons rfl _

theorem parseValue_string (fuel depth : Nat) (s : String) (rest : Bytes) :
    parseValue (fuel + 1) depth (0x20 :: (printString true s ++ rest)) = some (.str s, rest) := by
  have hQuote : skipSpace (0x20 :: (printString true s ++ rest)) =
      0x22 :: ((chars s).flatMap (printChar true) ++ 0x22 :: rest) := by
    rw [printString]
    simp [skipSpace, isSpace]
  rw [parseValue, hQuote]
  simp only [parseString_print, Option.map_some]

theorem parsedMember_indent (fuel depth : Nat) (m : String × String) (rest : Bytes) :
    ParsedMember (fuel + 1) depth (indentMember m ++ rest) (m.1, .str m.2) rest :=
  ⟨skipSpace_indentMember m rest, parseString_print true m.1 _, skipSpace_cons rfl _,
    parseValue_string fuel depth m.2 rest⟩

theorem parseMembers_indent (depth : Nat) (rest : Bytes) {ms : List (String × String)} (hSome : ms ≠ [])
    {fuel : Nat} (hFuel : ms.length + 1 ≤ fuel) :
    parseMembers fuel depth (indentMembers ms ++ 0x0a :: 0x7d :: rest) =
      some (textMembers ms, rest) := by
  induction ms generalizing fuel with
  | nil => exact absurd rfl hSome
  | cons m ms ih =>
      obtain ⟨fuel, rfl⟩ : ∃ n, fuel = n + 2 := ⟨fuel - 2, by simp at hFuel; omega⟩
      cases ms with
      | nil => exact (parsedMember_indent fuel depth m _).parseMembers.1 rfl
      | cons n ms =>
          have hRest := ih (List.cons_ne_nil n ms) (Nat.le_of_succ_le_succ hFuel)
          rw [indentMembers_cons_cons, List.append_assoc, List.cons_append,
            (parsedMember_indent fuel depth m _).parseMembers.2 (skipSpace_cons rfl _), hRest]
          rfl

theorem length_le_indentMembers (ms : List (String × String)) :
    ms.length ≤ (indentMembers ms).length := by
  induction ms with
  | nil => exact Nat.le_refl _
  | cons m ms ih =>
      cases ms with
      | nil => simp [indentMembers, indentMember]
      | cons n ms =>
          rw [indentMembers_cons_cons]
          simp only [List.length_append, List.length_cons] at ih ⊢
          omega

/-- An object of strings that was written out is read back. -/
theorem parseWhole_indented {ms : List (String × String)} (hSome : ms ≠ []) :
    parseWhole (printIndented ms ++ [0x0a]) = some (.obj (textMembers ms)) := by
  have hText : printIndented ms ++ [0x0a] =
      0x7b :: (indentMembers ms ++ 0x0a :: 0x7d :: [0x0a]) := by
    simp [printIndented]
  have hHead : ∃ b tail, skipSpace (indentMembers ms ++ 0x0a :: 0x7d :: [0x0a]) = b :: tail ∧
      b ≠ 0x5d ∧ b ≠ 0x7d := by
    obtain ⟨m, ms, rfl⟩ := List.exists_cons_of_ne_nil hSome
    cases ms with
    | nil =>
        rw [indentMembers, skipSpace_indentMember]
        exact ⟨_, _, rfl, by decide, by decide⟩
    | cons n ms =>
        rw [indentMembers_cons_cons, List.append_assoc, skipSpace_indentMember]
        exact ⟨_, _, rfl, by decide, by decide⟩
  have hLength := length_le_indentMembers ms
  have hMembers := @parseMembers_indent 9999 [0x0a] ms hSome
    (2 * (printIndented ms ++ [0x0a]).length + 1) (by rw [hText]; simp; omega)
  have hParse : parse (printIndented ms ++ [0x0a]) = some (.obj (textMembers ms), [0x0a]) := by
    rw [parse, hText, maxNestingDepth, (parseValue_container hHead).2, ← hText, hMembers]
    rfl
  rw [parseWhole, hParse]
  rfl

end Json
