import AtreoAgent.Json.RoundTrip

/-! The grammar of JSON (RFC 8259), over octets. It is stated apart from the
parser: a text is put together from its parts, and nothing is said about how it is
read. `parseValue` accepts a text behind white space, with containers nested at
most `depth` deep, exactly if the grammar derives it. -/
namespace Json

open Codec

/-- `ws` -/
def Spaces (w : Bytes) : Prop := ∀ b ∈ w, isSpace b = true

/-- `*DIGIT` -/
def Digits (ds : Bytes) : Prop := ∀ b ∈ ds, isDigit b = true

/-- `int = zero / ( digit1-9 *DIGIT )` -/
def IntText (bs : Bytes) : Prop :=
  bs = [0x30] ∨ ∃ d ds, bs = d :: ds ∧ isDigit d = true ∧ d ≠ 0x30 ∧ Digits ds

/-- `[ frac ]`, with `frac = decimal-point 1*DIGIT` -/
def FracText (bs : Bytes) : Prop :=
  bs = [] ∨ ∃ ds, bs = 0x2e :: ds ∧ ds ≠ [] ∧ Digits ds

/-- `[ minus / plus ] 1*DIGIT` -/
def SignedDigits (bs : Bytes) : Prop :=
  ∃ sign ds, bs = sign ++ ds ∧ (sign = [] ∨ sign = [0x2b] ∨ sign = [0x2d]) ∧ ds ≠ [] ∧ Digits ds

/-- `[ exp ]`, with `exp = e [ minus / plus ] 1*DIGIT` -/
def ExpText (bs : Bytes) : Prop :=
  bs = [] ∨ ∃ e ds, bs = e :: ds ∧ (e = 0x65 ∨ e = 0x45) ∧ SignedDigits ds

/-- `number = [ minus ] int [ frac ] [ exp ]` -/
def NumberText (bs : Bytes) : Prop :=
  ∃ minus int frac exp, bs = minus ++ (int ++ (frac ++ exp)) ∧
    (minus = [] ∨ minus = [0x2d]) ∧ IntText int ∧ FracText frac ∧ ExpText exp

/-- What may still follow in each state of the number scanner. -/
def NumState.Completes : NumState → Bytes → Prop
  | start, bs => NumberText bs
  | minus, bs => ∃ int frac exp, bs = int ++ (frac ++ exp) ∧ IntText int ∧ FracText frac ∧ ExpText exp
  | zero, bs => ∃ frac exp, bs = frac ++ exp ∧ FracText frac ∧ ExpText exp
  | digits, bs => ∃ ds frac exp, bs = ds ++ (frac ++ exp) ∧ Digits ds ∧ FracText frac ∧ ExpText exp
  | dot, bs => ∃ ds exp, bs = ds ++ exp ∧ ds ≠ [] ∧ Digits ds ∧ ExpText exp
  | fraction, bs => ∃ ds exp, bs = ds ++ exp ∧ Digits ds ∧ ExpText exp
  | exponent, bs => SignedDigits bs
  | exponentSign, bs => bs ≠ [] ∧ Digits bs
  | exponentDigits, bs => Digits bs

theorem digits_nil : Digits [] := by simp [Digits]

variable {b : UInt8} {ds bs rest cs : Bytes} {s t : NumState}

theorem Digits.cons (hb : isDigit b = true) (h : Digits ds) :
    Digits (b :: ds) := List.forall_mem_cons.mpr ⟨hb, h⟩

theorem NumState.completes_nil (h : s.accepts = true) : s.Completes [] := by
  cases s with
  | zero => exact ⟨[], [], rfl, Or.inl rfl, Or.inl rfl⟩
  | digits => exact ⟨[], [], [], rfl, digits_nil, Or.inl rfl, Or.inl rfl⟩
  | fraction => exact ⟨[], [], rfl, digits_nil, Or.inl rfl⟩
  | exponentDigits => exact digits_nil
  | _ => cases h

theorem NumState.Completes.numberText (h : Completes .minus bs) :
    NumberText bs ∧ NumberText (0x2d :: bs) := by
  obtain ⟨int, frac, exp, rfl, hInt, hFrac, hExp⟩ := h
  exact ⟨⟨[], int, frac, exp, rfl, Or.inl rfl, hInt, hFrac, hExp⟩,
    ⟨[0x2d], int, frac, exp, rfl, Or.inr rfl, hInt, hFrac, hExp⟩⟩

/-- One octet of the scanner, undone in the grammar. -/
theorem NumState.Completes.cons (hStep : s.step b = some t) (h : t.Completes bs) :
    s.Completes (b :: bs) := by
  have hZero : b = 0x30 → Completes .zero bs → Completes .minus (b :: bs) := by
    rintro rfl ⟨frac, exp, rfl, hFrac, hExp⟩
    exact ⟨[0x30], frac, exp, rfl, Or.inl rfl, hFrac, hExp⟩
  have hDigits : isDigit b = true → b ≠ 0x30 → Completes .digits bs →
      Completes .minus (b :: bs) := by
    rintro hb hNonzero ⟨ds, frac, exp, rfl, hDigits, hFrac, hExp⟩
    exact ⟨b :: ds, frac, exp, rfl, Or.inr ⟨b, ds, rfl, hb, hNonzero, hDigits⟩, hFrac, hExp⟩
  have hDot : b = 0x2e → Completes .dot bs → Completes .zero (b :: bs) := by
    rintro rfl ⟨ds, exp, rfl, hSome, hDigits, hExp⟩
    exact ⟨0x2e :: ds, exp, rfl, Or.inr ⟨ds, rfl, hSome, hDigits⟩, hExp⟩
  have hExp : b = 0x65 ∨ b = 0x45 → SignedDigits bs → ExpText (b :: bs) :=
    fun hb hDigits => Or.inr ⟨b, bs, rfl, hb, hDigits⟩
  cases s <;> simp only [NumState.step, Option.ite_none_right_eq_some] at hStep
  case start =>
    split_ifs at hStep with hMinus hb hb' <;> cases hStep
    · exact hMinus ▸ h.numberText.2
    · exact (hZero hb h).numberText.1
    · exact (hDigits hb' hb h).numberText.1
  case minus =>
    split_ifs at hStep with hb hb' <;> cases hStep
    · exact hZero hb h
    · exact hDigits hb' hb h
  case zero =>
    split_ifs at hStep with hb hb' <;> cases hStep
    · exact hDot hb h
    · exact ⟨[], b :: bs, rfl, Or.inl rfl, hExp hb' h⟩
  case digits =>
    split_ifs at hStep with hb hb' hb'' <;> cases hStep
    · obtain ⟨ds, frac, exp, rfl, hDs, hRest⟩ := h
      exact ⟨b :: ds, frac, exp, rfl, hDs.cons hb, hRest⟩
    · obtain ⟨frac, exp, hText, hRest⟩ := hDot hb' h
      exact ⟨[], frac, exp, hText, digits_nil, hRest⟩
    · exact ⟨[], [], b :: bs, rfl, digits_nil, Or.inl rfl, hExp hb'' h⟩
  case dot =>
    obtain ⟨hb, ⟨⟩⟩ := hStep
    obtain ⟨ds, exp, rfl, hDs, hRest⟩ := h
    exact ⟨b :: ds, exp, rfl, List.cons_ne_nil b ds, hDs.cons hb, hRest⟩
  case fraction =>
    split_ifs at hStep with hb hb' <;> cases hStep
    · obtain ⟨ds, exp, rfl, hDs, hRest⟩ := h
      exact ⟨b :: ds, exp, rfl, hDs.cons hb, hRest⟩
    · exact ⟨[], b :: bs, rfl, digits_nil, hExp hb' h⟩
  case exponent =>
    split_ifs at hStep with hb hb' <;> cases hStep
    · refine ⟨[b], bs, rfl, Or.inr ?_, h⟩
      rcases hb with rfl | rfl <;> simp
    · exact ⟨[], b :: bs, rfl, Or.inl rfl, List.cons_ne_nil b bs, Digits.cons hb' h⟩
  case exponentSign =>
    obtain ⟨hb, ⟨⟩⟩ := hStep
    exact ⟨List.cons_ne_nil b bs, Digits.cons hb h⟩
  case exponentDigits =>
    obtain ⟨hb, ⟨⟩⟩ := hStep
    exact Digits.cons hb h

theorem NumState.completes_of_run (hRun : s.run bs = some t) (hAccepts : t.accepts = true) :
    s.Completes bs := by
  induction bs generalizing s with
  | nil =>
      cases hRun
      exact completes_nil hAccepts
  | cons b bs ih =>
      obtain ⟨u, hStep, hRun⟩ := Option.bind_eq_some_iff.mp hRun
      exact (ih hRun).cons hStep

/-- The scanner may stop behind `bs`. -/
def NumState.Accepts (s : NumState) (bs : Bytes) : Prop := ∃ t, s.run bs = some t ∧ t.accepts = true

theorem isNumber_iff_accepts : isNumber bs = true ↔ NumState.Accepts .start bs := by
  unfold isNumber NumState.Accepts
  cases NumState.run .start bs <;> simp

theorem NumState.Accepts.cons (hStep : s.step b = some t) (h : t.Accepts bs) :
    s.Accepts (b :: bs) := by
  obtain ⟨u, hRun, hAccepts⟩ := h
  exact ⟨u, by rw [NumState.run, hStep, Option.bind_some, hRun], hAccepts⟩

/-- Digits change nothing in a state that goes on with them. -/
theorem NumState.Accepts.append_digits (hLoop : ∀ b, isDigit b = true → s.step b = some s)
    (hDs : Digits ds) (h : s.Accepts bs) : s.Accepts (ds ++ bs) := by
  induction ds with
  | nil => exact h
  | cons d ds ih =>
      obtain ⟨hd, hDs⟩ := List.forall_mem_cons.mp hDs
      exact (ih hDs).cons (hLoop d hd)

theorem isDigit_ne {c : UInt8} (hb : isDigit b = true) (hc : isDigit c = false) : b ≠ c := by
  rintro rfl
  simp [hb] at hc

theorem NumState.accepts_exponentDigits (h : Digits ds) : Accepts .exponentDigits ds := by
  have hEmpty : Accepts .exponentDigits [] := ⟨_, rfl, rfl⟩
  rw [← List.append_nil ds]
  exact hEmpty.append_digits (fun b hb => by simp [NumState.step, hb]) h

theorem NumState.accepts_exponent (h : SignedDigits bs) : Accepts .exponent bs := by
  obtain ⟨sign, ds, rfl, hSign, hSome, hDs⟩ := h
  obtain ⟨d, ds, rfl⟩ := List.exists_cons_of_ne_nil hSome
  obtain ⟨hd, hDs⟩ := List.forall_mem_cons.mp hDs
  have hRest := accepts_exponentDigits hDs
  have hPlus := isDigit_ne hd (c := 0x2b) rfl
  have hMinus := isDigit_ne hd (c := 0x2d) rfl
  have hSigned : Accepts .exponentSign (d :: ds) := hRest.cons (by simp [NumState.step, hd])
  rcases hSign with rfl | rfl | rfl
  · exact hRest.cons (by simp [NumState.step, hd, hPlus, hMinus])
  · exact hSigned.cons rfl
  · exact hSigned.cons rfl

theorem NumState.accepts_exp (hs : s = .zero ∨ s = .digits ∨ s = .fraction) (h : ExpText bs) :
    s.Accepts bs := by
  rcases h with rfl | ⟨e, ds, rfl, he, hDs⟩
  · rcases hs with rfl | rfl | rfl <;> exact ⟨_, rfl, rfl⟩
  · have hRest := accepts_exponent hDs
    rcases hs with rfl | rfl | rfl <;> rcases he with rfl | rfl <;> exact hRest.cons rfl

theorem NumState.accepts_frac (hs : s = .zero ∨ s = .digits) {frac exp : Bytes}
    (hFrac : FracText frac) (hExp : ExpText exp) : s.Accepts (frac ++ exp) := by
  rcases hFrac with rfl | ⟨ds, rfl, hSome, hDs⟩
  · exact accepts_exp (hs.imp id Or.inl) hExp
  · obtain ⟨d, ds, rfl⟩ := List.exists_cons_of_ne_nil hSome
    obtain ⟨hd, hDs⟩ := List.forall_mem_cons.mp hDs
    have hRest : Accepts .fraction (ds ++ exp) :=
      (accepts_exp (Or.inr (Or.inr rfl)) hExp).append_digits
        (fun b hb => by simp [NumState.step, hb]) hDs
    have hDot : Accepts .dot (d :: (ds ++ exp)) := hRest.cons (by simp [NumState.step, hd])
    rcases hs with rfl | rfl <;> exact hDot.cons rfl

theorem NumState.accepts_int (hs : s = .start ∨ s = .minus) {int frac exp : Bytes}
    (hInt : IntText int) (hFrac : FracText frac) (hExp : ExpText exp) :
    s.Accepts (int ++ (frac ++ exp)) := by
  rcases hInt with rfl | ⟨d, ds, rfl, hd, hNonzero, hDs⟩
  · have hRest := accepts_frac (Or.inl rfl) hFrac hExp
    rcases hs with rfl | rfl <;> exact hRest.cons rfl
  · have hRest : Accepts .digits (ds ++ (frac ++ exp)) :=
      (accepts_frac (Or.inr rfl) hFrac hExp).append_digits
        (fun b hb => by simp [NumState.step, hb]) hDs
    have hMinus := isDigit_ne hd (c := 0x2d) rfl
    rcases hs with rfl | rfl
    · exact hRest.cons (by simp [NumState.step, hd, hNonzero, hMinus])
    · exact hRest.cons (by simp [NumState.step, hd, hNonzero])

/-- The number scanner accepts the numbers of the grammar. -/
theorem isNumber_iff_numberText : isNumber bs = true ↔ NumberText bs := by
  rw [isNumber_iff_accepts]
  constructor
  · rintro ⟨t, hRun, hAccepts⟩
    exact NumState.completes_of_run hRun hAccepts
  · rintro ⟨minus, int, frac, exp, rfl, rfl | rfl, hInt, hFrac, hExp⟩
    · rw [List.nil_append]
      exact NumState.accepts_int (Or.inl rfl) hInt hFrac hExp
    · exact (NumState.accepts_int (Or.inr rfl) hInt hFrac hExp).cons rfl

theorem scanNumber_eq_some {lit : Bytes} (h : scanNumber s bs = some (lit, rest)) :
    bs = lit ++ rest := by
  induction bs generalizing s lit with
  | nil =>
      rw [scanNumber] at h
      split_ifs at h
      cases h
      rfl
  | cons b bs ih =>
      rw [scanNumber] at h
      cases hStep : s.step b with
      | some t =>
          simp only [hStep, Option.map_eq_some_iff] at h
          obtain ⟨r, hScan, h⟩ := h
          cases h
          rw [ih hScan]
          rfl
      | none =>
          simp only [hStep] at h
          split_ifs at h
          cases h
          rfl

theorem parseNumber_eq_some {n : Number} (h : parseNumber bs = some (n, rest)) :
    bs = n.lit ++ rest := by
  obtain ⟨r, hScan, h⟩ := Option.bind_eq_some_iff.mp h
  split_ifs at h
  cases h
  exact scanNumber_eq_some hScan

/-- `unescaped`, one octet at a time: what stands for itself in a string. -/
def isUnescaped (b : UInt8) : Bool := 0x20 ≤ b && b != 0x22 && b != 0x5c

def isHex (b : UInt8) : Bool := isDigit b || (0x41 ≤ b && b ≤ 0x46) || (0x61 ≤ b && b ≤ 0x66)

/-- An octet that a backslash makes a character of its own. -/
def isEscape (b : UInt8) : Bool :=
  b == 0x22 || b == 0x5c || b == 0x2f || b == 0x62 || b == 0x66 || b == 0x6e || b == 0x72 || b == 0x74

/-- `*char`: what stands between the quotes of a string. -/
inductive CharsText : Bytes → Prop where
  | nil : CharsText []
  | unescaped {b : UInt8} {cs : Bytes} (hb : isUnescaped b = true) (h : CharsText cs) :
      CharsText (b :: cs)
  | escape {b : UInt8} {cs : Bytes} (hb : isEscape b = true) (h : CharsText cs) :
      CharsText (0x5c :: b :: cs)
  | unicode {w x y z : UInt8} {cs : Bytes}
      (hHex : isHex w = true ∧ isHex x = true ∧ isHex y = true ∧ isHex z = true)
      (h : CharsText cs) : CharsText (0x5c :: 0x75 :: w :: x :: y :: z :: cs)

/-- `string = quotation-mark *char quotation-mark` -/
def StringText (bs : Bytes) : Prop := ∃ cs, bs = 0x22 :: (cs ++ [0x22]) ∧ CharsText cs

theorem isSome_hexValue (b : UInt8) : (hexValue b).isSome = isHex b := by
  rw [Bool.eq_iff_iff]
  simp only [hexValue, isHex, isDigit, Bool.or_eq_true, Bool.and_eq_true, decide_eq_true_eq,
    UInt8.le_iff_toNat_le, UInt8.reduceToNat]
  split_ifs <;> simp <;> omega

theorem isSome_hexQuad {w x y z : UInt8} :
    (∃ n, hexQuad w x y z = some n) ↔
      isHex w = true ∧ isHex x = true ∧ isHex y = true ∧ isHex z = true := by
  simp only [← isSome_hexValue, Option.isSome_iff_exists, hexQuad, Option.bind_eq_bind,
    Option.bind_eq_some_iff, Option.some.injEq]
  constructor
  · rintro ⟨n, a, ha, b, hb, c, hc, d, hd, -⟩
    exact ⟨⟨a, ha⟩, ⟨b, hb⟩, ⟨c, hc⟩, ⟨d, hd⟩⟩
  · rintro ⟨⟨a, ha⟩, ⟨b, hb⟩, ⟨c, hc⟩, ⟨d, hd⟩⟩
    exact ⟨_, a, ha, b, hb, c, hc, d, hd, rfl⟩

theorem lowSurrogate_eq_some {n : Nat} (h : lowSurrogate bs = some (n, rest)) :
    ∃ w x y z, bs = 0x5c :: 0x75 :: w :: x :: y :: z :: rest ∧ hexQuad w x y z = some n := by
  unfold lowSurrogate at h
  split at h
  next w x y z tail =>
    obtain ⟨m, hQuad, h⟩ := Option.bind_eq_some_iff.mp h
    split_ifs at h
    cases h
    exact ⟨w, x, y, z, rfl, hQuad⟩
  next => cases h

/-- What `parseEscape` takes off continues the characters of a string behind a backslash. -/
theorem CharsText.of_parseEscape {c : Char} (h : parseEscape bs = some (c, rest)) :
    ∃ esc, bs = esc ++ rest ∧ ∀ {cs}, CharsText cs → CharsText (0x5c :: (esc ++ cs)) := by
  unfold parseEscape at h
  split at h
  case h_1 w x y z tail =>
    obtain ⟨n, hQuad, h⟩ := Option.map_eq_some_iff.mp h
    have hHex := isSome_hexQuad.mp ⟨n, hQuad⟩
    split_ifs at h with hHigh
    · cases hLow : lowSurrogate tail with
      | none =>
          simp only [hLow] at h
          cases h
          exact ⟨[0x75, w, x, y, z], rfl, .unicode hHex⟩
      | some r =>
          simp only [hLow] at h
          obtain rfl := (Prod.mk.inj h).2
          -- A pair of surrogates is one character of the text and two of the grammar.
          obtain ⟨w', x', y', z', rfl, hQuad'⟩ := lowSurrogate_eq_some hLow
          have hHex' := isSome_hexQuad.mp ⟨_, hQuad'⟩
          exact ⟨[0x75, w, x, y, z, 0x5c, 0x75, w', x', y', z'], rfl,
            fun hcs => .unicode hHex (.unicode hHex' hcs)⟩
    · cases h
      exact ⟨[0x75, w, x, y, z], rfl, .unicode hHex⟩
    · cases h
      exact ⟨[0x75, w, x, y, z], rfl, .unicode hHex⟩
  case h_10 => cases h
  all_goals
    cases h
    exact ⟨[_], rfl, .escape rfl⟩

theorem CharsText.append_unescaped {xs : Bytes} (hXs : ∀ x ∈ xs, isUnescaped x = true)
    (h : CharsText cs) : CharsText (xs ++ cs) := by
  induction xs with
  | nil => exact h
  | cons x xs ih =>
      obtain ⟨hx, hXs⟩ := List.forall_mem_cons.mp hXs
      exact .unescaped hx (ih hXs)

theorem isUnescaped_of_high (h : 128 ≤ b.toNat) : isUnescaped b = true := by
  simp only [isUnescaped, Bool.and_eq_true, decide_eq_true_eq, bne_iff_ne, ne_eq,
    UInt8.le_iff_toNat_le, ← UInt8.toNat_inj, UInt8.reduceToNat]
  omega

theorem isUnescaped_iff : isUnescaped b = true ↔ b ≠ 0x22 ∧ b ≠ 0x5c ∧ ¬ b < 0x20 := by
  simp only [isUnescaped, Bool.and_eq_true, decide_eq_true_eq, bne_iff_ne, ne_eq, UInt8.not_lt]
  tauto

/-- The octets of the next character of a string all stand for themselves. -/
theorem decodeRune_unescaped (hb : isUnescaped b = true) (bs : Bytes) :
    0 < (decodeRune (b :: bs)).2 ∧
      ∀ x ∈ (b :: bs).take (decodeRune (b :: bs)).2, isUnescaped x = true := by
  by_cases hAscii : b.toNat < 128
  · rw [decodeRune, if_pos hAscii]
    simpa using hb
  · obtain ⟨hPos, hTake⟩ := decodeRune_high (Nat.not_lt.mp hAscii) bs
    exact ⟨hPos, fun x hx => isUnescaped_of_high (hTake x hx)⟩

theorem CharsText.of_parseChars {fuel : Nat} {cs : List Char}
    (h : parseChars fuel bs = some (cs, rest)) :
    ∃ text, bs = text ++ 0x22 :: rest ∧ CharsText text := by
  induction fuel generalizing bs cs with
  | zero => cases h
  | succ fuel ih =>
      cases bs with
      | nil => cases h
      | cons b bs =>
          rw [parseChars] at h
          split_ifs at h with hQuote hBackslash hControl
          · cases h
            exact ⟨[], by rw [hQuote]; rfl, .nil⟩
          · obtain ⟨e, hEscape, h⟩ := Option.bind_eq_some_iff.mp h
            obtain ⟨r, hTail, h⟩ := Option.map_eq_some_iff.mp h
            cases h
            obtain ⟨esc, rfl, hEsc⟩ := of_parseEscape hEscape
            obtain ⟨text, hText, hChars⟩ := ih hTail
            exact ⟨0x5c :: (esc ++ text), by rw [hText, hBackslash]; simp, hEsc hChars⟩
          · obtain ⟨r, hTail, h⟩ := Option.map_eq_some_iff.mp h
            cases h
            have hPlain := isUnescaped_iff.mpr ⟨hQuote, hBackslash, hControl⟩
            obtain ⟨text, hText, hChars⟩ := ih hTail
            refine ⟨_, ?_, hChars.append_unescaped (decodeRune_unescaped hPlain bs).2⟩
            rw [List.append_assoc, ← hText, List.take_append_drop]

theorem StringText.of_parseString {s : String} (h : parseString bs = some (s, rest)) :
    ∃ text, 0x22 :: bs = text ++ rest ∧ StringText text := by
  obtain ⟨r, hChars, h⟩ := Option.map_eq_some_iff.mp h
  cases h
  obtain ⟨cs, rfl, hText⟩ := CharsText.of_parseChars hChars
  exact ⟨0x22 :: (cs ++ [0x22]), by simp, cs, rfl, hText⟩

/-- Characters that stand for themselves, in front of the closing quote, belong to the string. -/
theorem CharsText.exists_eq_append {xs tail : Bytes} (h : CharsText cs)
    (hXs : ∀ x ∈ xs, isUnescaped x = true) (hEq : cs ++ 0x22 :: rest = xs ++ tail) :
    ∃ cs', cs = xs ++ cs' ∧ CharsText cs' := by
  induction xs generalizing cs with
  | nil => exact ⟨cs, rfl, h⟩
  | cons x xs ih =>
      obtain ⟨hx, hTail⟩ := List.forall_mem_cons.mp hXs
      cases h with
      | nil =>
          obtain ⟨rfl, -⟩ := List.cons.inj hEq
          cases hx
      | unescaped _ h =>
          obtain ⟨rfl, hRest⟩ := List.cons.inj hEq
          obtain ⟨cs', rfl, h'⟩ := ih h hTail hRest
          exact ⟨cs', rfl, h'⟩
      | escape | unicode =>
          obtain ⟨rfl, -⟩ := List.cons.inj hEq
          cases hx

/-- So does an escape. -/
theorem CharsText.exists_eq_unicode {w x y z : UInt8} {tail : Bytes} (h : CharsText cs)
    (hEq : cs ++ 0x22 :: rest = 0x5c :: 0x75 :: w :: x :: y :: z :: tail) :
    ∃ cs', cs = 0x5c :: 0x75 :: w :: x :: y :: z :: cs' ∧ CharsText cs' := by
  cases h with
  | nil => simp at hEq
  | unescaped hb =>
      obtain ⟨rfl, -⟩ := List.cons.inj hEq
      cases hb
  | escape hb =>
      simp only [List.cons_append, List.cons.injEq, true_and] at hEq
      obtain ⟨rfl, -⟩ := hEq
      cases hb
  | unicode _ h =>
      simp only [List.cons_append, List.cons.injEq, true_and] at hEq
      obtain ⟨rfl, rfl, rfl, rfl, -⟩ := hEq
      exact ⟨_, rfl, h⟩

/-- An escape of the grammar is read, together with the low surrogate behind a high one. -/
theorem CharsText.parseEscape (h : CharsText (0x5c :: bs)) (rest : Bytes) :
    ∃ c cs, Json.parseEscape (bs ++ 0x22 :: rest) = some (c, cs ++ 0x22 :: rest) ∧
      CharsText cs ∧ cs.length ≤ bs.length := by
  generalize hText : 0x5c :: bs = text at h
  cases h with
  | nil => cases hText
  | unescaped hb =>
      obtain ⟨rfl, -⟩ := List.cons.inj hText
      cases hb
  | @escape b cs hb h =>
      obtain rfl := (List.cons.inj hText).2
      refine (?_ : ∃ c, Json.parseEscape (b :: (cs ++ 0x22 :: rest)) = some (c, cs ++ 0x22 :: rest)).elim
        fun c hc => ⟨c, cs, hc, h, Nat.le_succ _⟩
      simp only [isEscape, Bool.or_eq_true, beq_iff_eq, or_assoc] at hb
      rcases hb with rfl | rfl | rfl | rfl | rfl | rfl | rfl | rfl <;> exact ⟨_, rfl⟩
  | @unicode w x y z cs hHex h =>
      obtain rfl := (List.cons.inj hText).2
      obtain ⟨n, hQuad⟩ := isSome_hexQuad.mpr hHex
      have hShort : cs.length ≤ (0x75 :: w :: x :: y :: z :: cs).length := by
        simp only [List.length_cons]
        omega
      simp only [List.cons_append, Json.parseEscape, hQuad, Option.map_some]
      split_ifs
      · cases hLow : lowSurrogate (cs ++ 0x22 :: rest) with
        | none => exact ⟨_, cs, rfl, h, hShort⟩
        | some r =>
            obtain ⟨w', x', y', z', hEq, -⟩ := lowSurrogate_eq_some hLow
            obtain ⟨cs', rfl, h'⟩ := h.exists_eq_unicode hEq
            simp only [List.cons_append, List.cons.injEq, true_and] at hEq
            simp only [List.length_cons] at hShort
            refine ⟨_, cs', by rw [hEq], h', ?_⟩
            simp only [List.length_cons]
            omega
      · exact ⟨_, cs, rfl, h, hShort⟩
      · exact ⟨_, cs, rfl, h, hShort⟩

theorem CharsText.parseChars (n : Nat) : ∀ {cs : Bytes}, cs.length ≤ n → CharsText cs →
    ∀ (rest : Bytes) (fuel : Nat), cs.length < fuel →
      ∃ text, Json.parseChars fuel (cs ++ 0x22 :: rest) = some (text, rest) := by
  -- A character may take several octets, so the induction is on the length.
  induction n with
  | zero =>
      intro cs hLength _ rest fuel hFuel
      obtain rfl := List.length_eq_zero_iff.mp (Nat.le_zero.mp hLength)
      obtain ⟨fuel, rfl⟩ : ∃ m, fuel = m + 1 := ⟨fuel - 1, by omega⟩
      exact ⟨[], by simp [Json.parseChars]⟩
  | succ n ih =>
      intro cs hLength h rest fuel hFuel
      obtain ⟨fuel, rfl⟩ : ∃ m, fuel = m + 1 := ⟨fuel - 1, by omega⟩
      cases cs with
      | nil => exact ⟨[], by simp [Json.parseChars]⟩
      | cons b bs =>
          simp only [List.length_cons] at hLength hFuel
          by_cases hBackslash : b = 0x5c
          · subst b
            obtain ⟨c, cs, hEscape, hChars, hShort⟩ := h.parseEscape rest
            obtain ⟨text, hText⟩ := ih (by omega) hChars rest fuel (by omega)
            exact ⟨c :: text, by simp [Json.parseChars, hEscape, hText]⟩
          · have hPlain : isUnescaped b = true := by
              cases h with
              | unescaped hb => exact hb
              | escape | unicode => exact absurd rfl hBackslash
            obtain ⟨hPos, hTake⟩ := decodeRune_unescaped hPlain (bs ++ 0x22 :: rest)
            obtain ⟨hQuote, -, hControl⟩ := isUnescaped_iff.mp hPlain
            have hEq := (List.take_append_drop
              (decodeRune (b :: (bs ++ 0x22 :: rest))).2 (b :: (bs ++ 0x22 :: rest))).symm
            obtain ⟨cs', hCs, hChars⟩ := h.exists_eq_append hTake hEq
            have hDrop : (b :: (bs ++ 0x22 :: rest)).drop
                (decodeRune (b :: (bs ++ 0x22 :: rest))).2 = cs' ++ 0x22 :: rest := by
              have hBoth := hEq.symm.trans (congrArg (· ++ 0x22 :: rest) hCs)
              rw [List.append_assoc] at hBoth
              exact List.append_cancel_left hBoth
            have hShort := congrArg List.length hCs
            simp only [List.length_cons, List.length_append, List.length_take] at hShort
            obtain ⟨text, hText⟩ := ih (by omega) hChars rest fuel (by omega)
            refine ⟨(decodeRune (b :: (bs ++ 0x22 :: rest))).1 :: text, ?_⟩
            simp only [List.cons_append, Json.parseChars, if_neg hQuote, if_neg hBackslash,
              if_neg hControl, hDrop, hText, Option.map_some]

theorem StringText.parseString {text : Bytes} (h : StringText text) (rest : Bytes) :
    ∃ s tail, text ++ rest = 0x22 :: tail ∧ Json.parseString tail = some (s, rest) := by
  obtain ⟨cs, rfl, hChars⟩ := h
  obtain ⟨text, hText⟩ := hChars.parseChars cs.length (Nat.le_refl _) rest
    ((cs ++ 0x22 :: rest).length + 1) (by simp only [List.length_append]; omega)
  exact ⟨String.ofList text, cs ++ 0x22 :: rest, by simp, by rw [Json.parseString, hText]; rfl⟩

end Json
