import AtreoAgent.Json.Parse

/-! Reading back what was printed. The text of a document, followed by anything
that cannot prolong a number, is parsed to that document; a parsed document is
never nested more deeply than the parser was told. -/
namespace Json

open Codec

/-- No number goes on with the first octet. -/
def Stops (bs : Bytes) : Prop := ∀ b ∈ bs.head?, ∀ s : NumState, s.step b = none

theorem stops_nil : Stops [] := by simp [Stops]

theorem stops_comma (bs : Bytes) : Stops (0x2c :: bs) := by
  intro b hb s
  simp only [List.head?_cons, Option.mem_some_iff] at hb
  subst b
  cases s <;> rfl

theorem stops_bracket (bs : Bytes) : Stops (0x5d :: bs) := by
  intro b hb s
  simp only [List.head?_cons, Option.mem_some_iff] at hb
  subst b
  cases s <;> rfl

theorem stops_brace (bs : Bytes) : Stops (0x7d :: bs) := by
  intro b hb s
  simp only [List.head?_cons, Option.mem_some_iff] at hb
  subst b
  cases s <;> rfl

variable {rest : Bytes} {d : Doc}

theorem scanNumber_append {s t : NumState} {lit : Bytes} (hRun : s.run lit = some t)
    (hAccepts : t.accepts = true) (hRest : Stops rest) :
    scanNumber s (lit ++ rest) = some (lit, rest) := by
  induction lit generalizing s with
  | nil =>
      simp only [NumState.run, Option.some.injEq] at hRun
      subst t
      cases rest with
      | nil => simp [scanNumber, hAccepts]
      | cons b bs =>
          have hStop := hRest b (by simp) s
          simp [scanNumber, hStop, hAccepts]
  | cons b lit ih =>
      simp only [NumState.run, Option.bind_eq_some_iff] at hRun
      obtain ⟨u, hStep, hRun⟩ := hRun
      simp [scanNumber, hStep, ih hRun]

theorem parseNumber_lit (n : Number) (hRest : Stops rest) :
    parseNumber (n.lit ++ rest) = some (n, rest) := by
  have hValid := n.wellFormed
  unfold isNumber at hValid
  cases hRun : NumState.run .start n.lit with
  | none => simp [hRun] at hValid
  | some t =>
      rw [hRun] at hValid
      have hScan := scanNumber_append hRun hValid hRest
      simp [parseNumber, hScan, n.wellFormed]

def startsNumber (b : UInt8) : Bool := b = 0x2d || isDigit b

theorem startsNumber_ne {b c : UInt8} (hb : startsNumber b = true) (hc : startsNumber c = false) :
    b ≠ c := by
  rintro rfl
  simp [hb] at hc

/-- A number starts with a minus sign or a digit. -/
theorem Number.exists_cons (n : Number) :
    ∃ b bs, n.lit = b :: bs ∧ startsNumber b = true := by
  have hValid := n.wellFormed
  cases hLit : n.lit with
  | nil => simp [hLit, isNumber, NumState.run, NumState.accepts] at hValid
  | cons b bs =>
      refine ⟨b, bs, rfl, ?_⟩
      by_contra hOther
      simp only [startsNumber, Bool.or_eq_true, decide_eq_true_eq, not_or] at hOther
      have hZero : b ≠ 0x30 := by
        rintro rfl
        exact hOther.2 rfl
      simp [hLit, isNumber, NumState.run, NumState.step, hOther.1, hOther.2, hZero] at hValid

theorem parseEscape_unicode {n : Nat} (hPlain : n < 0xD800) (rest : Bytes) :
    parseEscape ((unicodeEscape n).tail ++ rest) = some (Char.ofNat n, rest) := by
  have hQuad : n / 4096 % 16 * 4096 + n / 256 % 16 * 256 + n / 16 % 16 * 16 + n % 16 = n := by
    omega
  have h0 := hexValue_hexDigit (Nat.mod_lt (n / 4096) (by omega : 16 > 0))
  have h1 := hexValue_hexDigit (Nat.mod_lt (n / 256) (by omega : 16 > 0))
  have h2 := hexValue_hexDigit (Nat.mod_lt (n / 16) (by omega : 16 > 0))
  have h3 := hexValue_hexDigit (Nat.mod_lt n (by omega : 16 > 0))
  simp [unicodeEscape, parseEscape, hexQuad, h0, h1, h2, h3, hQuad, show ¬ 0xD800 ≤ n by omega,
    show ¬ 0xDC00 ≤ n by omega]

private theorem ofNat_plain {n : Nat} (hLow : 32 ≤ n) (hHigh : n < 256) (hQuote : n ≠ 0x22)
    (hBackslash : n ≠ 0x5c) :
    UInt8.ofNat n ≠ 0x22 ∧ UInt8.ofNat n ≠ 0x5c ∧ ¬ UInt8.ofNat n < 0x20 := by
  simp only [ne_eq, ← UInt8.toNat_inj, UInt8.lt_iff_toNat_lt, UInt8.toNat_ofNat',
    UInt8.reduceToNat]
  omega

/-- The first octet of a character that is neither a control character, a quote
nor a backslash is none of these either. -/
theorem exists_encode_cons (c : Char) (hControl : ¬ c.toNat < 0x20) (hQuote : c ≠ '"')
    (hBackslash : c ≠ '\\') :
    ∃ b bs, String.utf8EncodeChar c = b :: bs ∧ b ≠ 0x22 ∧ b ≠ 0x5c ∧ ¬ b < 0x20 := by
  have hQuoteNat : c.val.toNat ≠ 0x22 := fun h => hQuote (Char.toNat_inj.mp h)
  have hBackslashNat : c.val.toNat ≠ 0x5c := fun h => hBackslash (Char.toNat_inj.mp h)
  have hLow : 32 ≤ c.val.toNat := Nat.not_lt.mp hControl
  unfold String.utf8EncodeChar
  generalize c.val.toNat = v at hQuoteNat hBackslashNat hLow
  by_cases h1 : v ≤ 127
  · exact ⟨_, _, if_pos h1, ofNat_plain hLow (by omega) hQuoteNat hBackslashNat⟩
  · rw [if_neg h1]
    by_cases h2 : v ≤ 2047
    · exact ⟨_, _, if_pos h2, ofNat_plain (by omega) (by omega) (by omega) (by omega)⟩
    · rw [if_neg h2]
      by_cases h3 : v ≤ 65535
      · exact ⟨_, _, if_pos h3, ofNat_plain (by omega) (by omega) (by omega) (by omega)⟩
      · exact ⟨_, _, if_neg h3, ofNat_plain (by omega) (by omega) (by omega) (by omega)⟩

/-- The scanner reads one printed character and goes on behind it. -/
theorem parseChars_printChar (html : Bool) (c : Char) (fuel : Nat) (rest : Bytes) :
    parseChars (fuel + 1) (printChar html c ++ rest) =
      (parseChars fuel rest).map fun r => (c :: r.1, r.2) := by
  by_cases hQuote : c = '"'
  · subst c
    simp [printChar, parseChars, parseEscape]
  by_cases hBackslash : c = '\\'
  · subst c
    simp [printChar, parseChars, parseEscape]
  by_cases hBackspace : c = '\x08'
  · subst c
    simp [printChar, parseChars, parseEscape]
  by_cases hFeed : c = '\x0c'
  · subst c
    simp [printChar, parseChars, parseEscape]
  by_cases hNewline : c = '\n'
  · subst c
    simp [printChar, parseChars, parseEscape]
  by_cases hReturn : c = '\r'
  · subst c
    simp [printChar, parseChars, parseEscape]
  by_cases hTab : c = '\t'
  · subst c
    simp [printChar, parseChars, parseEscape]
  rw [printChar, if_neg hQuote, if_neg hBackslash, if_neg hBackspace, if_neg hFeed,
    if_neg hNewline, if_neg hReturn, if_neg hTab]
  split
  · rename_i hEscaped
    have hPlain : c.toNat < 0xD800 := by
      rcases hEscaped with h | ⟨-, rfl | rfl | rfl⟩ | h | h
      · omega
      · decide
      · decide
      · decide
      · omega
      · omega
    have hEscape := parseEscape_unicode hPlain rest
    rw [Char.ofNat_toNat] at hEscape
    have hHead : unicodeEscape c.toNat = 0x5c :: (unicodeEscape c.toNat).tail := rfl
    rw [hHead, List.cons_append]
    simp [parseChars, hEscape]
  · rename_i hPlain
    obtain ⟨b, bs, hEncode, hb⟩ :=
      exists_encode_cons c (fun h => hPlain (Or.inl h)) hQuote hBackslash
    have hRune := decodeRune_encode c rest
    have hDrop := drop_encode c rest
    rw [hEncode, List.cons_append] at hRune hDrop ⊢
    simp [parseChars, hb.1, hb.2.1, hb.2.2, hRune, hDrop]

theorem parseChars_print (html : Bool) (cs : List Char) (rest : Bytes) {fuel : Nat}
    (hFuel : cs.length < fuel) :
    parseChars fuel (cs.flatMap (printChar html) ++ 0x22 :: rest) = some (cs, rest) := by
  induction cs generalizing fuel with
  | nil =>
      obtain ⟨fuel, rfl⟩ : ∃ n, fuel = n + 1 := ⟨fuel - 1, by simp at hFuel; omega⟩
      simp [parseChars]
  | cons c cs ih =>
      obtain ⟨fuel, rfl⟩ : ∃ n, fuel = n + 1 := ⟨fuel - 1, by simp at hFuel; omega⟩
      have hTail := ih (by simpa using hFuel)
      rw [List.flatMap_cons, List.append_assoc, parseChars_printChar, hTail]
      rfl

theorem printChar_ne_nil (html : Bool) (c : Char) : printChar html c ≠ [] := by
  unfold printChar unicodeEscape
  repeat' split
  all_goals simp

theorem parseString_print (html : Bool) (s : String) (rest : Bytes) :
    parseString ((chars s).flatMap (printChar html) ++ 0x22 :: rest) = some (s, rest) := by
  rw [chars_eq]
  have hLength : s.toList.length ≤ (s.toList.flatMap (printChar html)).length := by
    induction s.toList with
    | nil => simp
    | cons c cs ih =>
        have hChar := List.length_pos_iff.mpr (printChar_ne_nil html c)
        simp only [List.length_cons, List.flatMap_cons, List.length_append]
        omega
  rw [parseString, parseChars_print html s.toList rest (by simp only [List.length_append]; omega)]
  simp

/-- A printed value starts with neither white space nor a closing bracket. -/
theorem Doc.exists_print_cons (html : Bool) (d : Doc) :
    ∃ b bs, d.print html = b :: bs ∧ isSpace b = false ∧ b ≠ 0x5d := by
  cases d with
  | null => exact ⟨_, _, rfl, rfl, by decide⟩
  | bool b => cases b <;> exact ⟨_, _, rfl, rfl, by decide⟩
  | num n =>
      obtain ⟨b, bs, hLit, hb⟩ := n.exists_cons
      refine ⟨b, bs, by rw [Doc.print, hLit], ?_, startsNumber_ne hb rfl⟩
      simp [isSpace, startsNumber_ne hb (c := 0x20) rfl, startsNumber_ne hb (c := 0x09) rfl,
        startsNumber_ne hb (c := 0x0d) rfl, startsNumber_ne hb (c := 0x0a) rfl]
  | str s => exact ⟨_, _, rfl, rfl, by decide⟩
  | arr items => exact ⟨_, _, rfl, rfl, by decide⟩
  | obj members => exact ⟨_, _, rfl, rfl, by decide⟩

theorem skipSpace_print (html : Bool) (d : Doc) (rest : Bytes) :
    skipSpace (d.print html ++ rest) = d.print html ++ rest := by
  obtain ⟨b, bs, hPrint, hSpace, -⟩ := d.exists_print_cons html
  rw [hPrint, List.cons_append, skipSpace, List.dropWhile_cons_of_neg (by simp [hSpace])]

theorem skipSpace_cons {b : UInt8} (h : isSpace b = false) (bs : Bytes) :
    skipSpace (b :: bs) = b :: bs := List.dropWhile_cons_of_neg (by simp [h])

theorem parseValue_number (n : Number) (fuel depth : Nat) (hRest : Stops rest) :
    parseValue (fuel + 1) depth (n.lit ++ rest) = some (.num n, rest) := by
  have hSpace : skipSpace (n.lit ++ rest) = n.lit ++ rest := skipSpace_print false (.num n) rest
  obtain ⟨b, bs, hLit, hb⟩ := n.exists_cons
  have hNumber := parseNumber_lit n hRest
  rw [hLit, List.cons_append] at hSpace hNumber ⊢
  unfold parseValue
  rw [hSpace]
  split
  case h_7 => simp [hNumber]
  all_goals
    rename_i hHead
    rw [List.cons.injEq] at hHead
    exact absurd hHead.1 (startsNumber_ne hb rfl)

/-- The document comes back from its text at nesting depth `depth`. -/
def Doc.ReadsBack (html : Bool) (depth : Nat) (d : Doc) : Prop :=
  ∀ fuel rest, 2 * (d.print html).length ≤ fuel → Stops rest →
    parseValue fuel depth (d.print html ++ rest) = some (d, rest)

theorem parseItems_print (html : Bool) (depth : Nat) (rest : Bytes) {items : List Doc}
    (hNonempty : items ≠ []) (hParts : ∀ d ∈ items, d.ReadsBack html depth) (fuel : Nat)
    (hFuel : 2 * (printItems html items).length + 1 ≤ fuel) :
    parseItems fuel depth (printItems html items ++ 0x5d :: rest) = some (items, rest) := by
  induction items generalizing fuel with
  | nil => exact absurd rfl hNonempty
  | cons d ds ih =>
      obtain ⟨fuel, rfl⟩ : ∃ n, fuel = n + 1 := ⟨fuel - 1, by omega⟩
      obtain ⟨hHead, hTail⟩ := List.forall_mem_cons.mp hParts
      cases ds with
      | nil =>
          rw [printItems] at hFuel ⊢
          have hValue := hHead fuel (0x5d :: rest) (by omega) (stops_bracket rest)
          rw [parseItems, hValue]
          rfl
      | cons e es =>
          rw [printItems_cons_cons] at hFuel ⊢
          simp only [List.length_append, List.length_cons] at hFuel
          rw [List.append_assoc, List.cons_append]
          have hValue := hHead fuel (0x2c :: (printItems html (e :: es) ++ 0x5d :: rest))
            (by omega) (stops_comma _)
          have hRest := ih (by simp) hTail fuel (by omega)
          rw [parseItems, hValue]
          change (parseItems fuel depth (printItems html (e :: es) ++ 0x5d :: rest)).map _ = _
          rw [hRest]
          rfl

theorem parseMembers_print (html : Bool) (depth : Nat) (rest : Bytes)
    {members : List (String × Doc)} (hNonempty : members ≠ [])
    (hParts : ∀ m ∈ members, m.2.ReadsBack html depth) (fuel : Nat)
    (hFuel : 2 * (printMembers html members).length + 1 ≤ fuel) :
    parseMembers fuel depth (printMembers html members ++ 0x7d :: rest) =
      some (members, rest) := by
  -- What follows the value decides how the object goes on.
  have hName : ∀ (m : String × Doc) (fuel : Nat) (bs : Bytes) (v : Doc) (after : Bytes),
      (parseValue fuel depth bs = some (v, 0x2c :: after) →
        parseMembers (fuel + 1) depth (printString html m.1 ++ 0x3a :: bs) =
          (parseMembers fuel depth after).map fun r => ((m.1, v) :: r.1, r.2)) ∧
      (parseValue fuel depth bs = some (v, 0x7d :: after) →
        parseMembers (fuel + 1) depth (printString html m.1 ++ 0x3a :: bs) =
          some ([(m.1, v)], after)) := by
    intro m fuel bs v after
    have hString := parseString_print html m.1 (0x3a :: bs)
    have hQuote : skipSpace (printString html m.1 ++ 0x3a :: bs) =
        0x22 :: ((chars m.1).flatMap (printChar html) ++ 0x22 :: 0x3a :: bs) := by
      rw [printString, List.cons_append, List.append_assoc, skipSpace_cons rfl]
      rfl
    rw [parseMembers, hQuote]
    constructor <;> intro hValue <;> change (parseString _).bind _ = _ <;> rw [hString] <;>
      change (parseValue fuel depth bs).bind _ = _ <;> rw [hValue] <;> rfl
  induction members generalizing fuel with
  | nil => exact absurd rfl hNonempty
  | cons m ms ih =>
      obtain ⟨fuel, rfl⟩ : ∃ n, fuel = n + 1 := ⟨fuel - 1, by omega⟩
      obtain ⟨hHead, hTail⟩ := List.forall_mem_cons.mp hParts
      cases ms with
      | nil =>
          rw [printMembers] at hFuel ⊢
          simp only [List.length_append, List.length_cons] at hFuel
          have hValue := hHead fuel (0x7d :: rest) (by omega) (stops_brace rest)
          rw [List.append_assoc, List.cons_append]
          exact (hName m fuel _ _ _).2 hValue
      | cons n ns =>
          rw [printMembers_cons_cons] at hFuel ⊢
          simp only [List.length_append, List.length_cons] at hFuel
          have hValue := hHead fuel (0x2c :: (printMembers html (n :: ns) ++ 0x7d :: rest))
            (by omega) (stops_comma _)
          have hRest := ih (by simp) hTail fuel (by omega)
          rw [List.append_assoc, List.cons_append, List.append_assoc, List.cons_append,
            (hName m fuel _ _ _).1 hValue, hRest]
          rfl

/-- Every document comes back from its text when its containers fit. -/
theorem Doc.readsBack (html : Bool) (d : Doc) :
    ∀ depth, d.height ≤ depth → d.ReadsBack html depth := by
  induction d using Doc.induct with
  | null =>
      intro depth _ fuel rest hFuel _
      obtain ⟨fuel, rfl⟩ : ∃ n, fuel = n + 1 := ⟨fuel - 1, by simp [Doc.print] at hFuel; omega⟩
      rfl
  | bool b =>
      intro depth _ fuel rest hFuel _
      cases b <;>
      obtain ⟨fuel, rfl⟩ : ∃ n, fuel = n + 1 := ⟨fuel - 1, by simp [Doc.print] at hFuel; omega⟩
      · rfl
      · rfl
  | num n =>
      intro depth _ fuel rest hFuel hRest
      obtain ⟨b, bs, hLit, -⟩ := n.exists_cons
      obtain ⟨fuel, rfl⟩ : ∃ n, fuel = n + 1 :=
        ⟨fuel - 1, by simp [Doc.print, hLit] at hFuel; omega⟩
      exact parseValue_number n fuel depth hRest
  | str s =>
      intro depth _ fuel rest hFuel _
      obtain ⟨fuel, rfl⟩ : ∃ n, fuel = n + 1 :=
        ⟨fuel - 1, by simp [Doc.print, printString] at hFuel; omega⟩
      have hString := parseString_print html s rest
      rw [Doc.print, printString, List.cons_append, List.append_assoc, parseValue,
        skipSpace_cons rfl]
      change (parseString _).map _ = _
      rw [List.singleton_append, hString]
      rfl
  | arr items ih =>
      intro depth hHeight fuel rest hFuel _
      rw [Doc.height] at hHeight
      obtain ⟨depth, rfl⟩ : ∃ n, depth = n + 1 := ⟨depth - 1, by omega⟩
      rw [Doc.print] at hFuel ⊢
      simp only [List.length_append, List.length_cons, List.length_nil] at hFuel
      obtain ⟨fuel, rfl⟩ : ∃ n, fuel = n + 1 := ⟨fuel - 1, by omega⟩
      rw [List.cons_append, List.append_assoc, List.singleton_append, parseValue,
        skipSpace_cons rfl]
      cases items with
      | nil => rfl
      | cons d ds =>
          have hParts : ∀ e ∈ d :: ds, e.ReadsBack html depth := fun e he =>
            ih e he depth (Doc.height_le_of_mem_items (Nat.le_of_succ_le_succ hHeight) e he)
          have hItems := parseItems_print html depth rest (by simp) hParts fuel (by omega)
          obtain ⟨b, bs, hPrint, hSpace, hBracket⟩ : ∃ b bs, printItems html (d :: ds) = b :: bs ∧
              isSpace b = false ∧ b ≠ 0x5d := by
            obtain ⟨b, bs, hPrint, hb⟩ := d.exists_print_cons html
            cases ds with
            | nil => exact ⟨b, bs, by rw [printItems, hPrint], hb⟩
            | cons e es =>
                exact ⟨b, _, by rw [printItems_cons_cons, hPrint, List.cons_append], hb⟩
          rw [hPrint, List.cons_append] at hItems ⊢
          simp only [skipSpace_cons hSpace]
          split
          · rename_i hHead
            exact absurd (List.cons.inj hHead).1 hBracket
          · rw [hItems]
            rfl
  | obj members ih =>
      intro depth hHeight fuel rest hFuel _
      rw [Doc.height] at hHeight
      obtain ⟨depth, rfl⟩ : ∃ n, depth = n + 1 := ⟨depth - 1, by omega⟩
      rw [Doc.print] at hFuel ⊢
      simp only [List.length_append, List.length_cons, List.length_nil] at hFuel
      obtain ⟨fuel, rfl⟩ : ∃ n, fuel = n + 1 := ⟨fuel - 1, by omega⟩
      rw [List.cons_append, List.append_assoc, List.singleton_append, parseValue,
        skipSpace_cons rfl]
      cases members with
      | nil => rfl
      | cons m ms =>
          have hParts : ∀ n ∈ m :: ms, n.2.ReadsBack html depth := fun n hn =>
            ih n hn depth (Doc.height_le_of_mem_members (Nat.le_of_succ_le_succ hHeight) n hn)
          have hMembers := parseMembers_print html depth rest (by simp) hParts fuel (by omega)
          obtain ⟨bs, hPrint⟩ : ∃ bs, printMembers html (m :: ms) = 0x22 :: bs := by
            cases ms with
            | nil => exact ⟨_, by rw [printMembers, printString, List.cons_append]⟩
            | cons n ns =>
                exact ⟨_, by rw [printMembers_cons_cons, printString, List.cons_append]⟩
          rw [hPrint, List.cons_append] at hMembers ⊢
          change (parseMembers _ _ _).map _ = _
          rw [hMembers]
          rfl

/-- The text of a document is read as that document. -/
theorem parse_print (html : Bool) (hHeight : d.height ≤ maxNestingDepth) (hRest : Stops rest) :
    parse (d.print html ++ rest) = some (d, rest) := by
  apply d.readsBack html maxNestingDepth hHeight _ rest _ hRest
  simp only [List.length_append]
  omega

theorem parseWhole_print (html : Bool) (hHeight : d.height ≤ maxNestingDepth) :
    parseWhole (d.print html) = some d := by
  have hParse := parse_print html hHeight stops_nil
  rw [List.append_nil] at hParse
  rw [parseWhole, hParse]
  rfl

/-- Documents with the same text are the same. -/
theorem print_injective (html : Bool) {e : Doc} (hd : d.height ≤ maxNestingDepth)
    (he : e.height ≤ maxNestingDepth) (h : d.print html = e.print html) : d = e := by
  have hParse := parseWhole_print html hd
  rw [h, parseWhole_print html he] at hParse
  exact (Option.some.inj hParse).symm

/-- What each of the three parsers accepts respects the nesting depth. -/
private theorem height_le_of_parse (fuel : Nat) :
    (∀ depth bs d rest, parseValue fuel depth bs = some (d, rest) → d.height ≤ depth) ∧
    (∀ depth bs items rest, parseItems fuel depth bs = some (items, rest) →
      Doc.heightItems items ≤ depth) ∧
    (∀ depth bs members rest, parseMembers fuel depth bs = some (members, rest) →
      Doc.heightMembers members ≤ depth) := by
  induction fuel with
  | zero => simp [parseValue, parseItems, parseMembers]
  | succ fuel ih =>
      obtain ⟨ihValue, ihItems, ihMembers⟩ := ih
      refine ⟨?_, ?_, ?_⟩
      · intro depth bs d rest h
        cases parseValue_cases h with
        | null | literalTrue | literalFalse | number | string => exact Nat.zero_le _
        | emptyArray => simp [Doc.height, Doc.heightItems]
        | array _ hItems => exact Nat.succ_le_succ (ihItems _ _ _ _ hItems)
        | emptyObject => simp [Doc.height, Doc.heightMembers]
        | object _ hMembers => exact Nat.succ_le_succ (ihMembers _ _ _ _ hMembers)
      · intro depth bs items rest h
        cases parseItems_cases h with
        | last hValue => simpa [Doc.heightItems] using ihValue _ _ _ _ hValue
        | more hValue _ hItems =>
            exact Nat.max_le.mpr ⟨ihValue _ _ _ _ hValue, ihItems _ _ _ _ hItems⟩
      · intro depth bs members rest h
        cases parseMembers_cases h with
        | last hMember =>
            obtain ⟨-, -, -, hValue⟩ := hMember
            simpa [Doc.heightMembers] using ihValue _ _ _ _ hValue
        | more hMember _ hMembers =>
            obtain ⟨-, -, -, hValue⟩ := hMember
            exact Nat.max_le.mpr ⟨ihValue _ _ _ _ hValue, ihMembers _ _ _ _ hMembers⟩

/-- A parsed document is nested no deeper than the parser allows. -/
theorem height_le_of_parse_eq {bs : Bytes} (h : parse bs = some (d, rest)) :
    d.height ≤ maxNestingDepth := (height_le_of_parse _).1 _ _ _ _ h

end Json
