import AtreoAgent.Json.Syntax

/-! Reading JSON text. The scanner takes the longest number, replaces an
ill-formed octet and an unpaired surrogate by U+FFFD, and gives up on containers
nested too deeply. Recursion is on a fuel argument that `parse` takes from the
length of the text. -/
namespace Json

open Codec

def isSpace (b : UInt8) : Bool := b = 0x20 || b = 0x09 || b = 0x0d || b = 0x0a

def skipSpace (bs : Bytes) : Bytes := bs.dropWhile isSpace

/-- The longest number at the front, as long as it ends in an accepting state. -/
def scanNumber : NumState → Bytes → Option (Bytes × Bytes)
  | s, [] => if s.accepts then some ([], []) else none
  | s, b :: bs =>
      match s.step b with
      | some t => (scanNumber t bs).map fun r => (b :: r.1, r.2)
      | none => if s.accepts then some ([], b :: bs) else none

def parseNumber (bs : Bytes) : Option (Number × Bytes) :=
  (scanNumber .start bs).bind fun r =>
    if h : isNumber r.1 = true then some (⟨r.1, h⟩, r.2) else none

def hexQuad (a b c d : UInt8) : Option Nat := do
  let w ← hexValue a
  let x ← hexValue b
  let y ← hexValue c
  let z ← hexValue d
  some (w * 4096 + x * 256 + y * 16 + z)

/-- The low surrogate an escape right behind a high one stands for. -/
def lowSurrogate : Bytes → Option (Nat × Bytes)
  | 0x5c :: 0x75 :: a :: b :: c :: d :: rest =>
      (hexQuad a b c d).bind fun n => if 0xDC00 ≤ n ∧ n < 0xE000 then some (n, rest) else none
  | _ => none

/-- What follows a backslash. -/
def parseEscape : Bytes → Option (Char × Bytes)
  | 0x75 :: a :: b :: c :: d :: rest =>
      (hexQuad a b c d).map fun n =>
        if 0xD800 ≤ n ∧ n < 0xDC00 then
          match lowSurrogate rest with
          | some (m, rest) => (Char.ofNat (0x10000 + (n - 0xD800) * 1024 + (m - 0xDC00)), rest)
          | none => (replacementChar, rest)
        else if 0xDC00 ≤ n ∧ n < 0xE000 then (replacementChar, rest)
        else (Char.ofNat n, rest)
  | 0x22 :: rest => some ('"', rest)
  | 0x5c :: rest => some ('\\', rest)
  | 0x2f :: rest => some ('/', rest)
  | 0x62 :: rest => some ('\x08', rest)
  | 0x66 :: rest => some ('\x0c', rest)
  | 0x6e :: rest => some ('\n', rest)
  | 0x72 :: rest => some ('\r', rest)
  | 0x74 :: rest => some ('\t', rest)
  | _ => none

/-- The characters up to the closing quote. -/
def parseChars : Nat → Bytes → Option (List Char × Bytes)
  | 0, _ => none
  | _ + 1, [] => none
  | fuel + 1, b :: bs =>
      if b = 0x22 then some ([], bs)
      else if b = 0x5c then
        (parseEscape bs).bind fun e =>
          (parseChars fuel e.2).map fun r => (e.1 :: r.1, r.2)
      else if b < 0x20 then none
      else
        let rune := decodeRune (b :: bs)
        (parseChars fuel ((b :: bs).drop rune.2)).map fun r => (rune.1 :: r.1, r.2)

/-- A string whose opening quote has been read. -/
def parseString (bs : Bytes) : Option (String × Bytes) :=
  (parseChars (bs.length + 1) bs).map fun r => (String.ofList r.1, r.2)

mutual

/-- One value, with containers nested at most `depth` deep. -/
def parseValue : Nat → Nat → Bytes → Option (Doc × Bytes)
  | 0, _, _ => none
  | fuel + 1, depth, bs =>
      match skipSpace bs with
      | 0x22 :: rest => (parseString rest).map fun r => (.str r.1, r.2)
      | 0x5b :: rest =>
          match depth with
          | 0 => none
          | depth + 1 =>
              match skipSpace rest with
              | 0x5d :: rest => some (.arr [], rest)
              | rest => (parseItems fuel depth rest).map fun r => (.arr r.1, r.2)
      | 0x7b :: rest =>
          match depth with
          | 0 => none
          | depth + 1 =>
              match skipSpace rest with
              | 0x7d :: rest => some (.obj [], rest)
              | rest => (parseMembers fuel depth rest).map fun r => (.obj r.1, r.2)
      | 0x6e :: 0x75 :: 0x6c :: 0x6c :: rest => some (.null, rest)
      | 0x74 :: 0x72 :: 0x75 :: 0x65 :: rest => some (.bool true, rest)
      | 0x66 :: 0x61 :: 0x6c :: 0x73 :: 0x65 :: rest => some (.bool false, rest)
      | rest => (parseNumber rest).map fun r => (.num r.1, r.2)

/-- At least one item, up to the closing bracket. -/
def parseItems : Nat → Nat → Bytes → Option (List Doc × Bytes)
  | 0, _, _ => none
  | fuel + 1, depth, bs =>
      (parseValue fuel depth bs).bind fun v =>
        match skipSpace v.2 with
        | 0x2c :: rest => (parseItems fuel depth rest).map fun r => (v.1 :: r.1, r.2)
        | 0x5d :: rest => some ([v.1], rest)
        | _ => none

/-- At least one member, up to the closing brace. -/
def parseMembers : Nat → Nat → Bytes → Option (List (String × Doc) × Bytes)
  | 0, _, _ => none
  | fuel + 1, depth, bs =>
      match skipSpace bs with
      | 0x22 :: rest =>
          (parseString rest).bind fun k =>
            match skipSpace k.2 with
            | 0x3a :: rest =>
                (parseValue fuel depth rest).bind fun v =>
                  match skipSpace v.2 with
                  | 0x2c :: rest =>
                      (parseMembers fuel depth rest).map fun r => ((k.1, v.1) :: r.1, r.2)
                  | 0x7d :: rest => some ([(k.1, v.1)], rest)
                  | _ => none
            | _ => none
      | _ => none

end

/-- The ways in which `parseValue` succeeds. -/
inductive ParsedValue (fuel : Nat) (bs rest : Bytes) : Nat → Doc → Prop where
  | null {depth : Nat} (hText : skipSpace bs = [0x6e, 0x75, 0x6c, 0x6c] ++ rest) :
      ParsedValue fuel bs rest depth .null
  | literalTrue {depth : Nat} (hText : skipSpace bs = [0x74, 0x72, 0x75, 0x65] ++ rest) :
      ParsedValue fuel bs rest depth (.bool true)
  | literalFalse {depth : Nat} (hText : skipSpace bs = [0x66, 0x61, 0x6c, 0x73, 0x65] ++ rest) :
      ParsedValue fuel bs rest depth (.bool false)
  | number {depth : Nat} {n : Number} (hNumber : parseNumber (skipSpace bs) = some (n, rest)) :
      ParsedValue fuel bs rest depth (.num n)
  | string {depth : Nat} {s : String} {text : Bytes} (hOpen : skipSpace bs = 0x22 :: text)
      (hString : parseString text = some (s, rest)) : ParsedValue fuel bs rest depth (.str s)
  | emptyArray {depth : Nat} {text : Bytes} (hOpen : skipSpace bs = 0x5b :: text)
      (hClose : skipSpace text = 0x5d :: rest) : ParsedValue fuel bs rest (depth + 1) (.arr [])
  | array {depth : Nat} {text : Bytes} {items : List Doc} (hOpen : skipSpace bs = 0x5b :: text)
      (hItems : parseItems fuel depth (skipSpace text) = some (items, rest)) :
      ParsedValue fuel bs rest (depth + 1) (.arr items)
  | emptyObject {depth : Nat} {text : Bytes} (hOpen : skipSpace bs = 0x7b :: text)
      (hClose : skipSpace text = 0x7d :: rest) : ParsedValue fuel bs rest (depth + 1) (.obj [])
  | object {depth : Nat} {text : Bytes} {members : List (String × Doc)}
      (hOpen : skipSpace bs = 0x7b :: text)
      (hMembers : parseMembers fuel depth (skipSpace text) = some (members, rest)) :
      ParsedValue fuel bs rest (depth + 1) (.obj members)

/-- The ways in which `parseItems` succeeds. -/
inductive ParsedItems (fuel depth : Nat) (bs rest : Bytes) : List Doc → Prop where
  | last {d : Doc} {after : Bytes} (hValue : parseValue fuel depth bs = some (d, after))
      (hClose : skipSpace after = 0x5d :: rest) : ParsedItems fuel depth bs rest [d]
  | more {d : Doc} {items : List Doc} {after text : Bytes}
      (hValue : parseValue fuel depth bs = some (d, after))
      (hComma : skipSpace after = 0x2c :: text)
      (hItems : parseItems fuel depth text = some (items, rest)) :
      ParsedItems fuel depth bs rest (d :: items)

/-- A name, a colon and a value at the front of `bs`, and what follows them. -/
inductive ParsedMember (fuel depth : Nat) (bs : Bytes) : String × Doc → Bytes → Prop where
  | mk {k : String} {d : Doc} {name colon value after : Bytes} (hOpen : skipSpace bs = 0x22 :: name)
      (hName : parseString name = some (k, colon)) (hColon : skipSpace colon = 0x3a :: value)
      (hValue : parseValue fuel depth value = some (d, after)) :
      ParsedMember fuel depth bs (k, d) after

/-- The ways in which `parseMembers` succeeds. -/
inductive ParsedMembers (fuel depth : Nat) (bs rest : Bytes) : List (String × Doc) → Prop where
  | last {m : String × Doc} {after : Bytes} (hMember : ParsedMember fuel depth bs m after)
      (hClose : skipSpace after = 0x7d :: rest) : ParsedMembers fuel depth bs rest [m]
  | more {m : String × Doc} {members : List (String × Doc)} {after text : Bytes}
      (hMember : ParsedMember fuel depth bs m after) (hComma : skipSpace after = 0x2c :: text)
      (hMembers : parseMembers fuel depth text = some (members, rest)) :
      ParsedMembers fuel depth bs rest (m :: members)

variable {fuel depth : Nat} {bs rest : Bytes}

theorem parseValue_cases {d : Doc} (h : parseValue (fuel + 1) depth bs = some (d, rest)) :
    ParsedValue fuel bs rest depth d := by
  unfold parseValue at h
  split at h
  next text hOpen =>
    simp only [Option.map_eq_some_iff, Prod.mk.injEq] at h
    obtain ⟨r, hString, rfl, rfl⟩ := h
    exact .string hOpen hString
  next text hOpen =>
    cases depth with
    | zero => cases h
    | succ depth =>
        simp only at h
        split at h
        next hClose =>
          cases h
          exact .emptyArray hOpen hClose
        next =>
          simp only [Option.map_eq_some_iff, Prod.mk.injEq] at h
          obtain ⟨r, hItems, rfl, rfl⟩ := h
          exact .array hOpen hItems
  next text hOpen =>
    cases depth with
    | zero => cases h
    | succ depth =>
        simp only at h
        split at h
        next hClose =>
          cases h
          exact .emptyObject hOpen hClose
        next =>
          simp only [Option.map_eq_some_iff, Prod.mk.injEq] at h
          obtain ⟨r, hMembers, rfl, rfl⟩ := h
          exact .object hOpen hMembers
  next hText =>
    cases h
    exact .null hText
  next hText =>
    cases h
    exact .literalTrue hText
  next hText =>
    cases h
    exact .literalFalse hText
  next =>
    simp only [Option.map_eq_some_iff, Prod.mk.injEq] at h
    obtain ⟨r, hNumber, rfl, rfl⟩ := h
    exact .number hNumber

theorem parseItems_cases {items : List Doc}
    (h : parseItems (fuel + 1) depth bs = some (items, rest)) :
    ParsedItems fuel depth bs rest items := by
  unfold parseItems at h
  simp only [Option.bind_eq_some_iff] at h
  obtain ⟨⟨d, after⟩, hValue, h⟩ := h
  split at h
  next hComma =>
    simp only [Option.map_eq_some_iff, Prod.mk.injEq] at h
    obtain ⟨r, hItems, rfl, rfl⟩ := h
    exact .more hValue hComma hItems
  next hClose =>
    cases h
    exact .last hValue hClose
  next => cases h

theorem parseMembers_cases {members : List (String × Doc)}
    (h : parseMembers (fuel + 1) depth bs = some (members, rest)) :
    ParsedMembers fuel depth bs rest members := by
  unfold parseMembers at h
  split at h
  next name hOpen =>
    simp only [Option.bind_eq_some_iff] at h
    obtain ⟨⟨k, colon⟩, hName, h⟩ := h
    split at h
    next value hColon =>
      simp only [Option.bind_eq_some_iff] at h
      obtain ⟨⟨d, after⟩, hValue, h⟩ := h
      have hMember : ParsedMember fuel depth bs (k, d) after :=
        ⟨hOpen, hName, hColon, hValue⟩
      split at h
      next hComma =>
        simp only [Option.map_eq_some_iff, Prod.mk.injEq] at h
        obtain ⟨r, hMembers, rfl, rfl⟩ := h
        exact .more hMember hComma hMembers
      next hClose =>
        cases h
        exact .last hMember hClose
      next => cases h
    next => cases h
  next => cases h

def maxNestingDepth : Nat := 10000

/-- The first value of a text, and what follows it. -/
def parse (bs : Bytes) : Option (Doc × Bytes) :=
  parseValue (2 * bs.length + 2) maxNestingDepth bs

/-- A text that is one value and white space. -/
def parseWhole (bs : Bytes) : Option Doc :=
  (parse bs).bind fun r => if skipSpace r.2 = [] then some r.1 else none

end Json
