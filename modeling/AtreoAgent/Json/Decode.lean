import AtreoAgent.Json.Tree

/-! Decoding into a struct. Members are matched to fields without regard to
case and taken in the order of the text; a repeated member overwrites the field,
and a repeated object is decoded on top of the struct already filled. `null`
leaves a string or a number as it is and makes a slice nil. -/
namespace Json

open Codec

/-- Type of a plain field. -/
inductive Leaf where
  | text | int | texts
  deriving DecidableEq, Repr

/-- A field is plain or a struct of plain fields. -/
inductive Shape where
  | leaf (l : Leaf)
  | record (fields : List (String × Leaf))
  deriving DecidableEq, Repr

abbrev Schema := List (String × Shape)

/-- Smallest character of the simple case folding class, for the classes that hold
an ASCII letter: the long s and the kelvin sign fold to `S` and `K`. -/
def foldChar (c : Char) : Char :=
  if 'a' ≤ c ∧ c ≤ 'z' then Char.ofNat (c.toNat - 32)
  else if c.toNat = 0x17F then 'S'
  else if c.toNat = 0x212A then 'K'
  else c

def foldName (s : String) : List Char := (chars s).map foldChar

/-- The field a member name stands for: the exact name first, then a folded one. -/
def fieldOf {α : Type} (fields : List (String × α)) (name : String) : Option (String × α) :=
  (fields.find? fun f => f.1 = name).or
    (fields.find? fun f => foldName f.1 = foldName name)

/-- `strconv.ParseInt(lit, 10, 64)` on a number literal. -/
def parseInt64 (lit : Bytes) : Option Int :=
  let digits := if lit.head? = some 0x2d then lit.tail else lit
  let value : Nat := digits.foldl (fun n b => 10 * n + (b.toNat - 48)) 0
  if digits = [] ∨ digits.all isDigit = false then none
  else if lit.head? = some 0x2d then if value ≤ 9223372036854775808 then some (-(value : Int)) else none
  else if value < 9223372036854775808 then some (value : Int) else none

/-- One store into a plain field. In `texts`, `none` stands for a `null` item. -/
inductive Store where
  | text (s : String)
  | int (n : Int)
  | texts (items : List (Option String))
  | nilTexts
  deriving DecidableEq, Repr

def textItem : Doc → Option (Option String)
  | .str s => some (some s)
  | .null => some none
  | _ => none

/-- The stores a value makes into a plain field, or `none` for a type mismatch. -/
def leafStores : Leaf → Doc → Option (List Store)
  | .text, .str s => some [.text s]
  | .text, .null => some []
  | .int, .num n => (parseInt64 n.lit).map fun i => [.int i]
  | .int, .null => some []
  | .texts, .arr items => (items.mapM textItem).map fun ts => [.texts ts]
  | .texts, .null => some [.nilTexts]
  | _, _ => none

/-- A store together with the path of its field. -/
abbrev Event := List String × Store

/-- The events of all members, in order, or `none` if one of them fails. -/
def collect {α : Type} (f : α → Option (List Event)) : List α → Option (List Event)
  | [] => some []
  | a :: as => (f a).bind fun es => (collect f as).map fun rest => es ++ rest

def recordEvent (path : List String) (fields : List (String × Leaf)) (m : String × Doc) :
    Option (List Event) :=
  match fieldOf fields m.1 with
  | none => some []
  | some f => (leafStores f.2 m.2).map fun ss => ss.map fun s => (path ++ [f.1], s)

def shapeEvents (name : String) : Shape → Doc → Option (List Event)
  | .leaf l, d => (leafStores l d).map fun ss => ss.map fun s => ([name], s)
  | .record _, .null => some []
  | .record fields, .obj members => collect (recordEvent [name] fields) members
  | .record _, _ => none

def memberEvents (schema : Schema) (m : String × Doc) : Option (List Event) :=
  match fieldOf schema m.1 with
  | none => some []
  | some f => shapeEvents f.1 f.2 m.2

/-- All stores a document makes into a struct. -/
def decodeStruct (schema : Schema) : Doc → Option (List Event)
  | .null => some []
  | .obj members => collect (memberEvents schema) members
  | _ => none

/-- `json.Unmarshal` into a struct, up to reading its fields. -/
def unmarshal (schema : Schema) (bs : Bytes) : Option (List Event) :=
  (parseWhole bs).bind (decodeStruct schema)

/-- A slice of strings: the part in sight, and what an earlier value left behind it. -/
structure Slice where
  visible : Option (List String)
  spare : List String
  deriving DecidableEq, Repr

def fillSlice : List String → List (Option String) → List String
  | _, [] => []
  | old, item :: items => item.getD (old.headD "") :: fillSlice old.tail items

def Slice.store (slice : Slice) : Store → Slice
  | .texts [] => ⟨some [], []⟩
  | .texts items =>
      let old := slice.visible.getD [] ++ slice.spare
      ⟨some (fillSlice old items), old.drop items.length⟩
  | .nilTexts => ⟨none, []⟩
  | _ => slice

def storesAt (path : List String) (events : List Event) : List Store :=
  (events.filter fun e => e.1 = path).map Prod.snd

def finalText (stores : List Store) : String :=
  stores.foldl (fun old s => match s with | .text t => t | _ => old) ""

def finalInt (stores : List Store) : Int :=
  stores.foldl (fun old s => match s with | .int n => n | _ => old) 0

def finalTexts (stores : List Store) : Option (List String) :=
  (stores.foldl Slice.store ⟨none, []⟩).visible

/-- The value a plain field ends up with. -/
inductive Value where
  | text (s : String)
  | int (n : Int)
  | texts (items : Option (List String))
  deriving DecidableEq, Repr

def Leaf.final : Leaf → List Store → Value
  | .text, ss => .text (finalText ss)
  | .int, ss => .int (finalInt ss)
  | .texts, ss => .texts (finalTexts ss)

/-- The paths of all plain fields. -/
def leaves (schema : Schema) : List (List String × Leaf) :=
  schema.flatMap fun f =>
    match f.2 with
    | .leaf l => [([f.1], l)]
    | .record fields => fields.map fun g => ([f.1, g.1], g.2)

end Json
