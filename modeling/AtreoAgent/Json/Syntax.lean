import AtreoAgent.Codec.Base64
import AtreoAgent.Codec.Decimal

/-! JSON documents and their text. A document keeps the members of an object in
the order of the text, repeated names included; a number keeps its literal, so
printing never changes it. -/
namespace Json

open Codec

/-- States of the number scanner. -/
inductive NumState where
  | start | minus | zero | digits | dot | fraction | exponent | exponentSign | exponentDigits
  deriving DecidableEq, Repr

def isDigit (b : UInt8) : Bool := 0x30 ≤ b && b ≤ 0x39

namespace NumState

/-- The state after one more octet, if a number may go on with it. -/
def step : NumState → UInt8 → Option NumState
  | start, b =>
      if b = 0x2d then some minus else if b = 0x30 then some zero
      else if isDigit b then some digits else none
  | minus, b => if b = 0x30 then some zero else if isDigit b then some digits else none
  | zero, b =>
      if b = 0x2e then some dot else if b = 0x65 ∨ b = 0x45 then some exponent else none
  | digits, b =>
      if isDigit b then some digits else if b = 0x2e then some dot
      else if b = 0x65 ∨ b = 0x45 then some exponent else none
  | dot, b => if isDigit b then some fraction else none
  | fraction, b =>
      if isDigit b then some fraction else if b = 0x65 ∨ b = 0x45 then some exponent else none
  | exponent, b =>
      if b = 0x2b ∨ b = 0x2d then some exponentSign
      else if isDigit b then some exponentDigits else none
  | exponentSign, b => if isDigit b then some exponentDigits else none
  | exponentDigits, b => if isDigit b then some exponentDigits else none

/-- A number may end here. -/
def accepts : NumState → Bool
  | zero | digits | fraction | exponentDigits => true
  | _ => false

def run : NumState → Bytes → Option NumState
  | s, [] => some s
  | s, b :: bs => (s.step b).bind fun t => t.run bs

end NumState

def isNumber (lit : Bytes) : Bool := ((NumState.run .start lit).map NumState.accepts).getD false

/-- A well-formed number literal. -/
structure Number where
  lit : Bytes
  wellFormed : isNumber lit = true
  deriving DecidableEq

@[ext] theorem Number.ext {m n : Number} (h : m.lit = n.lit) : m = n := by
  cases m; cases n; cases h; rfl

theorem NumState.run_append (s : NumState) (xs ys : Bytes) :
    s.run (xs ++ ys) = (s.run xs).bind fun t => t.run ys := by
  induction xs generalizing s with
  | nil => rfl
  | cons b bs ih =>
      rw [List.cons_append, NumState.run, NumState.run]
      cases s.step b with
      | none => rfl
      | some t => exact ih t

/-- The digits of a positive number, read at the beginning of a literal. -/
theorem NumState.run_toDigits {s : NumState} (hStart : s = .start ∨ s = .minus) (n : Nat) :
    0 < n → s.run ((Nat.toDigits 10 n).flatMap String.utf8EncodeChar) = some .digits := by
  induction n using Nat.strongRecOn with
  | ind n ih =>
      intro hPos
      have hDigit : ∀ d, d < 10 → ∀ t : NumState, t = .digits ∨ (0 < d ∧ (t = .start ∨ t = .minus)) →
          t.run (String.utf8EncodeChar (Nat.digitChar d)) = some .digits := by
        intro d hd t ht
        rcases ht with rfl | ⟨hNonzero, rfl | rfl⟩ <;> revert d <;> decide
      by_cases hSmall : n < 10
      · rw [Nat.toDigits_of_lt_base hSmall, List.flatMap_singleton]
        exact hDigit n hSmall s (Or.inr ⟨hPos, hStart⟩)
      · rw [Nat.toDigits_of_base_le (by decide) (by omega), List.flatMap_append,
          NumState.run_append, ih (n / 10) (by omega) (by omega), List.flatMap_singleton]
        exact hDigit (n % 10) (by omega) .digits (Or.inl rfl)

theorem isNumber_itoa (n : Int) : isNumber (itoa n) = true := by
  have hText : ∀ m : Nat, utf8 (toString m) = (Nat.toDigits 10 m).flatMap String.utf8EncodeChar := by
    intro m
    simp [utf8_eq_flatMap, toString, Nat.repr]
  cases n with
  | ofNat m =>
      have hItoa : itoa (Int.ofNat m) = utf8 (toString m) := rfl
      rw [hItoa, hText, isNumber]
      rcases Nat.eq_zero_or_pos m with rfl | hPos
      · decide
      · rw [NumState.run_toDigits (Or.inl rfl) m hPos]
        rfl
  | negSucc m =>
      have hItoa : itoa (Int.negSucc m) = 0x2d :: utf8 (toString (m + 1)) := by
        have hRepr : toString (Int.negSucc m) = "-" ++ toString (m + 1) := rfl
        rw [itoa, hRepr, utf8_eq_flatMap, utf8_eq_flatMap, String.toList_append, List.flatMap_append]
        rfl
      rw [hItoa, hText, isNumber, NumState.run]
      change Option.getD (Option.map _ (NumState.run .minus _)) _ = _
      rw [NumState.run_toDigits (Or.inr rfl) (m + 1) (Nat.succ_pos m)]
      rfl

/-- An integer as a number literal. -/
def Number.ofInt (n : Int) : Number := ⟨itoa n, isNumber_itoa n⟩

inductive Doc where
  | null
  | bool (b : Bool)
  | num (n : Number)
  | str (s : String)
  | arr (items : List Doc)
  | obj (members : List (String × Doc))

namespace Doc

/-- Induction over documents, with the hypothesis for every part of a container. -/
theorem induct {P : Doc → Prop} (null : P .null) (bool : ∀ b, P (.bool b))
    (num : ∀ n, P (.num n)) (str : ∀ s, P (.str s))
    (arr : ∀ items, (∀ d ∈ items, P d) → P (.arr items))
    (obj : ∀ members : List (String × Doc), (∀ m ∈ members, P m.2) → P (.obj members))
    (d : Doc) : P d :=
  @Doc.rec P (fun items => ∀ d ∈ items, P d) (fun members => ∀ m ∈ members, P m.2)
    (fun m => P m.2) null bool num str arr obj (by simp)
    (fun _ _ hHead hTail => List.forall_mem_cons.mpr ⟨hHead, hTail⟩) (by simp)
    (fun _ _ hHead hTail => List.forall_mem_cons.mpr ⟨hHead, hTail⟩) (fun _ _ h => h) d

mutual

/-- Containers nested in one another. -/
def height : Doc → Nat
  | arr items => heightItems items + 1
  | obj members => heightMembers members + 1
  | _ => 0

def heightItems : List Doc → Nat
  | [] => 0
  | d :: ds => max d.height (heightItems ds)

def heightMembers : List (String × Doc) → Nat
  | [] => 0
  | m :: ms => max m.2.height (heightMembers ms)

end

theorem height_le_of_mem_items {items : List Doc} {n : Nat} (h : heightItems items ≤ n) :
    ∀ d ∈ items, d.height ≤ n := by
  induction items with
  | nil => simp
  | cons d ds ih =>
      rw [heightItems] at h
      intro e he
      rcases List.mem_cons.mp he with rfl | he
      · omega
      · exact ih (by omega) e he

theorem heightItems_le {items : List Doc} {n : Nat} (h : ∀ d ∈ items, d.height ≤ n) :
    heightItems items ≤ n := by
  induction items with
  | nil => simp [heightItems]
  | cons d ds ih =>
      simp only [List.forall_mem_cons] at h
      have hTail := ih h.2
      rw [heightItems]
      omega

@[simp] theorem heightItems_strings (texts : List String) : heightItems (texts.map .str) = 0 := by
  apply Nat.le_zero.mp
  refine heightItems_le fun d hd => ?_
  obtain ⟨text, _, rfl⟩ := List.mem_map.mp hd
  exact Nat.le_refl 0

theorem heightMembers_le {members : List (String × Doc)} {n : Nat}
    (h : ∀ m ∈ members, m.2.height ≤ n) : heightMembers members ≤ n := by
  induction members with
  | nil => simp [heightMembers]
  | cons m ms ih =>
      simp only [List.forall_mem_cons] at h
      have hTail := ih h.2
      rw [heightMembers]
      omega

theorem height_le_of_mem_members {members : List (String × Doc)} {n : Nat}
    (h : heightMembers members ≤ n) : ∀ m ∈ members, m.2.height ≤ n := by
  induction members with
  | nil => simp
  | cons m ms ih =>
      rw [heightMembers] at h
      intro e he
      rcases List.mem_cons.mp he with rfl | he
      · omega
      · exact ih (by omega) e he

end Doc

/-- `\u` and four hexadecimal digits. -/
def unicodeEscape (n : Nat) : Bytes :=
  [0x5c, 0x75, hexDigit (n / 4096 % 16), hexDigit (n / 256 % 16), hexDigit (n / 16 % 16),
    hexDigit (n % 16)]

/-- One character inside a string. The signs `<`, `>` and `&` are escaped only
for `html`; the two line separators always are. -/
def printChar (html : Bool) (c : Char) : Bytes :=
  if c = '"' then [0x5c, 0x22]
  else if c = '\\' then [0x5c, 0x5c]
  else if c = '\x08' then [0x5c, 0x62]
  else if c = '\x0c' then [0x5c, 0x66]
  else if c = '\n' then [0x5c, 0x6e]
  else if c = '\r' then [0x5c, 0x72]
  else if c = '\t' then [0x5c, 0x74]
  else if c.toNat < 0x20 ∨ (html = true ∧ (c = '<' ∨ c = '>' ∨ c = '&')) ∨
      c.toNat = 0x2028 ∨ c.toNat = 0x2029 then unicodeEscape c.toNat
  else String.utf8EncodeChar c

def printString (html : Bool) (s : String) : Bytes :=
  0x22 :: ((chars s).flatMap (printChar html) ++ [0x22])

mutual

/-- The text of a document, without insignificant space. -/
def Doc.print (html : Bool) : Doc → Bytes
  | .null => [0x6e, 0x75, 0x6c, 0x6c]
  | .bool true => [0x74, 0x72, 0x75, 0x65]
  | .bool false => [0x66, 0x61, 0x6c, 0x73, 0x65]
  | .num n => n.lit
  | .str s => printString html s
  | .arr items => 0x5b :: (printItems html items ++ [0x5d])
  | .obj members => 0x7b :: (printMembers html members ++ [0x7d])

def printItems (html : Bool) : List Doc → Bytes
  | [] => []
  | [d] => d.print html
  | d :: ds => d.print html ++ 0x2c :: printItems html ds

def printMembers (html : Bool) : List (String × Doc) → Bytes
  | [] => []
  | [m] => printString html m.1 ++ 0x3a :: m.2.print html
  | m :: ms => printString html m.1 ++ 0x3a :: (m.2.print html ++ 0x2c :: printMembers html ms)

end

theorem printItems_cons_cons (html : Bool) (d e : Doc) (ds : List Doc) :
    printItems html (d :: e :: ds) = d.print html ++ 0x2c :: printItems html (e :: ds) := by
  rw [printItems]
  simp

theorem printMembers_cons_cons (html : Bool) (m n : String × Doc) (ms : List (String × Doc)) :
    printMembers html (m :: n :: ms) = printString html m.1 ++ 0x3a ::
      (m.2.print html ++ 0x2c :: printMembers html (n :: ms)) := by
  rw [printMembers]
  simp

end Json
