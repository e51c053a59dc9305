import AtreoAgent.Json.Grammar
import AtreoAgent.Json.Tree
import Mathlib.Data.List.TakeWhile

/-! The parser against the grammar. What `parseValue` takes off a text is white
space and a value the grammar derives; and every value the grammar derives is
taken off, whatever follows it that does not prolong a number. -/
namespace Json

open Codec

inductive Nonterminal where
  | value | element | elements | member | members
  deriving DecidableEq, Repr

/-- The texts of a nonterminal whose containers are nested at most `depth` deep.
`null` is a value only if `nulls` says so. -/
inductive Derives (nulls : Bool) : Nonterminal → Nat → Bytes → Prop where
  | null {depth : Nat} (hNulls : nulls = true) :
      Derives nulls .value depth [0x6e, 0x75, 0x6c, 0x6c]
  | literalTrue {depth : Nat} : Derives nulls .value depth [0x74, 0x72, 0x75, 0x65]
  | literalFalse {depth : Nat} : Derives nulls .value depth [0x66, 0x61, 0x6c, 0x73, 0x65]
  | number {depth : Nat} {lit : Bytes} (h : NumberText lit) : Derives nulls .value depth lit
  | string {depth : Nat} {text : Bytes} (h : StringText text) : Derives nulls .value depth text
  | emptyArray {depth : Nat} {w : Bytes} (hw : Spaces w) :
      Derives nulls .value (depth + 1) (0x5b :: (w ++ [0x5d]))
  | array {depth : Nat} {es : Bytes} (h : Derives nulls .elements depth es) :
      Derives nulls .value (depth + 1) (0x5b :: (es ++ [0x5d]))
  | emptyObject {depth : Nat} {w : Bytes} (hw : Spaces w) :
      Derives nulls .value (depth + 1) (0x7b :: (w ++ [0x7d]))
  | object {depth : Nat} {ms : Bytes} (h : Derives nulls .members depth ms) :
      Derives nulls .value (depth + 1) (0x7b :: (ms ++ [0x7d]))
  | element {depth : Nat} {w v w' : Bytes} (hw : Spaces w) (h : Derives nulls .value depth v)
      (hw' : Spaces w') : Derives nulls .element depth (w ++ (v ++ w'))
  | lastElement {depth : Nat} {e : Bytes} (h : Derives nulls .element depth e) :
      Derives nulls .elements depth e
  | moreElements {depth : Nat} {e es : Bytes} (h : Derives nulls .element depth e)
      (hs : Derives nulls .elements depth es) : Derives nulls .elements depth (e ++ 0x2c :: es)
  | member {depth : Nat} {w name w' e : Bytes} (hw : Spaces w) (hName : StringText name)
      (hw' : Spaces w') (h : Derives nulls .element depth e) :
      Derives nulls .member depth (w ++ (name ++ (w' ++ 0x3a :: e)))
  | lastMember {depth : Nat} {m : Bytes} (h : Derives nulls .member depth m) :
      Derives nulls .members depth m
  | moreMembers {depth : Nat} {m ms : Bytes} (h : Derives nulls .member depth m)
      (hs : Derives nulls .members depth ms) : Derives nulls .members depth (m ++ 0x2c :: ms)

variable {w bs : Bytes} {depth : Nat} {nulls : Bool}

theorem Spaces.append {w' : Bytes} (hw : Spaces w) (hw' : Spaces w') : Spaces (w ++ w') :=
  List.forall_mem_append.mpr ⟨hw, hw'⟩

theorem exists_spaces (bs : Bytes) : ∃ w, bs = w ++ skipSpace bs ∧ Spaces w :=
  ⟨bs.takeWhile isSpace, List.takeWhile_append_dropWhile.symm, fun _ hb => List.mem_takeWhile_imp hb⟩

theorem skipSpace_spaces (hw : Spaces w) (bs : Bytes) :
    skipSpace (w ++ bs) = skipSpace bs := List.dropWhile_append_of_pos hw

theorem skipSpace_skipSpace (bs : Bytes) : skipSpace (skipSpace bs) = skipSpace bs := by
  obtain ⟨w, hText, hw⟩ := exists_spaces bs
  have hSkip := skipSpace_spaces hw (skipSpace bs)
  rw [← hText] at hSkip
  exact hSkip.symm

theorem stops_space (hw : Spaces w) {rest : Bytes} (h : Stops rest) : Stops (w ++ rest) := by
  cases w with
  | nil => exact h
  | cons b w =>
      intro c hc s
      simp only [List.cons_append, List.head?_cons, Option.mem_some_iff] at hc
      subst c
      have hb := hw b List.mem_cons_self
      simp only [isSpace, Bool.or_eq_true, decide_eq_true_eq, or_assoc] at hb
      rcases hb with rfl | rfl | rfl | rfl <;> cases s <;> rfl

/-- Elements may start with more white space. -/
theorem Derives.spaces_elements {es : Bytes} (hw : Spaces w)
    (h : Derives nulls .elements depth es) : Derives nulls .elements depth (w ++ es) := by
  have hElement : ∀ {e}, Derives nulls .element depth e → Derives nulls .element depth (w ++ e) := by
    intro e h
    cases h with
    | element hw₀ h hw' =>
        rw [← List.append_assoc]
        exact .element (hw.append hw₀) h hw'
  cases h with
  | lastElement h => exact .lastElement (hElement h)
  | moreElements h hs =>
      rw [← List.append_assoc]
      exact .moreElements (hElement h) hs

theorem Derives.spaces_members {ms : Bytes} (hw : Spaces w) (h : Derives nulls .members depth ms) :
    Derives nulls .members depth (w ++ ms) := by
  have hMember : ∀ {m}, Derives nulls .member depth m → Derives nulls .member depth (w ++ m) := by
    intro m h
    cases h with
    | member hw₀ hName hw' h =>
        rw [← List.append_assoc]
        exact .member (hw.append hw₀) hName hw' h
  cases h with
  | lastMember h => exact .lastMember (hMember h)
  | moreMembers h hs =>
      rw [← List.append_assoc]
      exact .moreMembers (hMember h) hs

/-- The first octet of a value, behind white space, closes nothing. -/
theorem Derives.head {n : Nonterminal} (h : Derives nulls n depth bs) (rest : Bytes) :
    ∃ b tail, skipSpace (bs ++ rest) = b :: tail ∧ b ≠ 0x5d ∧ b ≠ 0x7d := by
  induction h generalizing rest with
  | null | literalTrue | literalFalse => exact ⟨_, _, rfl, by decide, by decide⟩
  | @number _ lit h =>
      let n : Number := ⟨lit, isNumber_iff_numberText.mpr h⟩
      obtain ⟨b, bs, hLit, hb⟩ := n.exists_cons
      have hSkip : skipSpace (lit ++ rest) = lit ++ rest := skipSpace_print false (.num n) rest
      refine ⟨b, bs ++ rest, ?_, startsNumber_ne hb rfl, startsNumber_ne hb rfl⟩
      rw [hSkip, ← List.cons_append]
      exact congrArg (· ++ rest) hLit
  | string h =>
      obtain ⟨cs, rfl, -⟩ := h
      exact ⟨_, _, rfl, by decide, by decide⟩
  | emptyArray | array | emptyObject | object => exact ⟨_, _, rfl, by decide, by decide⟩
  | element hw _ _ ih =>
      rw [List.append_assoc, List.append_assoc, skipSpace_spaces hw]
      exact ih _
  | lastElement _ ih | lastMember _ ih => exact ih rest
  | moreElements _ _ ih _ | moreMembers _ _ ih _ =>
      rw [List.append_assoc]
      exact ih _
  | member hw hName _ _ _ =>
      obtain ⟨cs, rfl, -⟩ := hName
      rw [List.append_assoc, skipSpace_spaces hw]
      exact ⟨_, _, rfl, by decide, by decide⟩

/-- A value and the white space behind it. -/
theorem Derives.element_of_after {v after rest : Bytes} (hw : Spaces w)
    (h : Derives nulls .value depth v) (hAfter : skipSpace after = rest) :
    ∃ e, w ++ (v ++ after) = e ++ rest ∧ Derives nulls .element depth e := by
  obtain ⟨w', hText, hw'⟩ := exists_spaces after
  refine ⟨w ++ (v ++ w'), ?_, .element hw h hw'⟩
  rw [hText, hAfter]
  simp only [List.append_assoc]

/-- What the three parsers take off a text is derived by the grammar; without
`null` if the document holds none. -/
theorem Derives.of_parse (nulls : Bool) (fuel : Nat) :
    (∀ {depth bs d rest}, parseValue fuel depth bs = some (d, rest) →
      (nulls = false → d.nullFree = true) →
        ∃ w v, bs = w ++ (v ++ rest) ∧ Spaces w ∧ Derives nulls .value depth v) ∧
    (∀ {depth bs items rest}, parseItems fuel depth bs = some (items, rest) →
      (nulls = false → ∀ d ∈ items, d.nullFree = true) →
        ∃ es, bs = es ++ 0x5d :: rest ∧ Derives nulls .elements depth es) ∧
    (∀ {depth bs members rest}, parseMembers fuel depth bs = some (members, rest) →
      (nulls = false → ∀ m ∈ members, m.2.nullFree = true) →
        ∃ ms, bs = ms ++ 0x7d :: rest ∧ Derives nulls .members depth ms) := by
  induction fuel with
  | zero => simp [parseValue, parseItems, parseMembers]
  | succ fuel ih =>
      obtain ⟨ihValue, ihItems, ihMembers⟩ := ih
      refine ⟨?_, ?_, ?_⟩
      · intro depth bs d rest h hNull
        obtain ⟨w, hText, hw⟩ := exists_spaces bs
        -- It is enough to find the value behind the white space.
        refine (?_ : ∃ v, skipSpace bs = v ++ rest ∧ Derives nulls .value depth v).elim
          fun v hv => ⟨w, v, by rw [← hv.1]; exact hText, hw, hv.2⟩
        cases parseValue_cases h with
        | null hText =>
            refine ⟨_, hText, .null ?_⟩
            cases nulls with
            | true => rfl
            | false => cases hNull rfl
        | literalTrue hText => exact ⟨_, hText, .literalTrue⟩
        | literalFalse hText => exact ⟨_, hText, .literalFalse⟩
        | @number _ n hNumber =>
            have hText := parseNumber_eq_some hNumber
            exact ⟨n.lit, hText, .number (isNumber_iff_numberText.mp n.wellFormed)⟩
        | string hOpen hString =>
            obtain ⟨text, hEq, hText⟩ := StringText.of_parseString hString
            exact ⟨text, hOpen.trans hEq, .string hText⟩
        | @emptyArray _ text hOpen hClose =>
            obtain ⟨w', hText', hw'⟩ := exists_spaces text
            refine ⟨0x5b :: (w' ++ [0x5d]), ?_, .emptyArray hw'⟩
            rw [hOpen, hText', hClose]
            simp
        | @array _ text items hOpen hItems =>
            obtain ⟨w', hText', hw'⟩ := exists_spaces text
            obtain ⟨es, hEs, hDerives⟩ := ihItems hItems fun hn =>
              (nullFreeItems_iff items).mp (hNull hn)
            refine ⟨0x5b :: ((w' ++ es) ++ [0x5d]), ?_, .array (hDerives.spaces_elements hw')⟩
            rw [hOpen, hText', hEs]
            simp
        | @emptyObject _ text hOpen hClose =>
            obtain ⟨w', hText', hw'⟩ := exists_spaces text
            refine ⟨0x7b :: (w' ++ [0x7d]), ?_, .emptyObject hw'⟩
            rw [hOpen, hText', hClose]
            simp
        | @object _ text members hOpen hMembers =>
            obtain ⟨w', hText', hw'⟩ := exists_spaces text
            obtain ⟨ms, hMs, hDerives⟩ := ihMembers hMembers fun hn =>
              (nullFreeMembers_iff members).mp (hNull hn)
            refine ⟨0x7b :: ((w' ++ ms) ++ [0x7d]), ?_, .object (hDerives.spaces_members hw')⟩
            rw [hOpen, hText', hMs]
            simp
      · intro depth bs items rest h hNull
        cases parseItems_cases h with
        | last hValue hClose =>
            obtain ⟨w, v, rfl, hw, hv⟩ := ihValue hValue fun hn => hNull hn _ List.mem_cons_self
            obtain ⟨e, hText, he⟩ := hv.element_of_after hw hClose
            exact ⟨e, hText, .lastElement he⟩
        | more hValue hComma hItems =>
            obtain ⟨w, v, rfl, hw, hv⟩ := ihValue hValue fun hn => hNull hn _ List.mem_cons_self
            obtain ⟨e, hText, he⟩ := hv.element_of_after hw hComma
            obtain ⟨es, rfl, hes⟩ := ihItems hItems fun hn d hd => hNull hn d (List.mem_cons_of_mem _ hd)
            exact ⟨e ++ 0x2c :: es, by rw [hText]; simp, .moreElements he hes⟩
      · intro depth bs members rest h hNull
        -- A name and its value, up to the sign behind them.
        have hMember : ∀ {m after sign}, ParsedMember fuel depth bs m after →
            (nulls = false → m.2.nullFree = true) → skipSpace after = sign →
              ∃ t, bs = t ++ sign ∧ Derives nulls .member depth t := by
          rintro _ after sign (@⟨k, d, name, colon, value, _, hOpen, hName, hColon, hValue⟩) hNull hSign
          obtain ⟨w, hText, hw⟩ := exists_spaces bs
          obtain ⟨name, hEq, hString⟩ := StringText.of_parseString hName
          obtain ⟨w', hText', hw'⟩ := exists_spaces colon
          obtain ⟨u, v, rfl, hu, hv⟩ := ihValue hValue hNull
          obtain ⟨e, hEnd, he⟩ := hv.element_of_after hu hSign
          refine ⟨w ++ (name ++ (w' ++ 0x3a :: e)), ?_, .member hw hString hw' he⟩
          rw [hText, hOpen, hEq, hText', hColon, hEnd]
          simp
        cases parseMembers_cases h with
        | last hParsed hClose =>
            obtain ⟨t, hText, ht⟩ := hMember hParsed (fun hn => hNull hn _ List.mem_cons_self) hClose
            exact ⟨t, hText, .lastMember ht⟩
        | more hParsed hComma hMembers =>
            obtain ⟨t, hText, ht⟩ := hMember hParsed (fun hn => hNull hn _ List.mem_cons_self) hComma
            obtain ⟨ms, rfl, hms⟩ := ihMembers hMembers fun hn m hm =>
              hNull hn m (List.mem_cons_of_mem _ hm)
            exact ⟨t ++ 0x2c :: ms, by rw [hText]; simp, .moreMembers ht hms⟩

/-- White space in front changes nothing. -/
theorem parse_skipSpace (fuel depth : Nat) (bs : Bytes) :
    parseValue fuel depth (skipSpace bs) = parseValue fuel depth bs ∧
    parseItems fuel depth (skipSpace bs) = parseItems fuel depth bs ∧
    parseMembers fuel depth (skipSpace bs) = parseMembers fuel depth bs := by
  have hValue : ∀ fuel, parseValue fuel depth (skipSpace bs) = parseValue fuel depth bs := by
    intro fuel
    cases fuel with
    | zero => rfl
    | succ fuel =>
        unfold parseValue
        rw [skipSpace_skipSpace]
  cases fuel with
  | zero => exact ⟨rfl, rfl, rfl⟩
  | succ fuel =>
      refine ⟨hValue _, ?_, ?_⟩
      · rw [parseItems, parseItems, hValue]
      · rw [parseMembers, parseMembers, skipSpace_skipSpace]

/-- What the parsers make of a text of the nonterminal. The fuel suffices for the
length of the text, and the document holds no `null` where the grammar has none. -/
def Nonterminal.Read (nulls : Bool) : Nonterminal → Nat → Bytes → Prop
  | value, depth, bs => ∀ fuel rest, 2 * bs.length ≤ fuel → Stops rest →
      ∃ d, parseValue fuel depth (bs ++ rest) = some (d, rest) ∧ (nulls = false → d.nullFree = true)
  | element, depth, bs => ∀ fuel rest, 2 * bs.length ≤ fuel → Stops rest →
      ∃ d after, parseValue fuel depth (bs ++ rest) = some (d, after) ∧
        skipSpace after = skipSpace rest ∧ (nulls = false → d.nullFree = true)
  | elements, depth, bs => ∀ fuel rest, 2 * bs.length + 1 ≤ fuel →
      ∃ items, parseItems fuel depth (bs ++ 0x5d :: rest) = some (items, rest) ∧
        (nulls = false → ∀ d ∈ items, d.nullFree = true)
  | member, depth, bs => ∀ fuel rest, 2 * bs.length ≤ fuel → Stops rest →
      ∃ m after, ParsedMember fuel depth (bs ++ rest) m after ∧
        skipSpace after = skipSpace rest ∧ (nulls = false → m.2.nullFree = true)
  | members, depth, bs => ∀ fuel rest, 2 * bs.length + 1 ≤ fuel →
      ∃ members, parseMembers fuel depth (bs ++ 0x7d :: rest) = some (members, rest) ∧
        (nulls = false → ∀ m ∈ members, m.2.nullFree = true)

/-- A container that is not empty is read by the parser of its parts. -/
theorem parseValue_container {fuel : Nat}
    (hHead : ∃ b tail, skipSpace bs = b :: tail ∧ b ≠ 0x5d ∧ b ≠ 0x7d) :
    parseValue (fuel + 1) (depth + 1) (0x5b :: bs) =
        (parseItems fuel depth bs).map (fun r => (.arr r.1, r.2)) ∧
    parseValue (fuel + 1) (depth + 1) (0x7b :: bs) =
        (parseMembers fuel depth bs).map (fun r => (.obj r.1, r.2)) := by
  obtain ⟨b, tail, hSkip, hBracket, hBrace⟩ := hHead
  have hItems := (parse_skipSpace fuel depth bs).2.1
  have hMembers := (parse_skipSpace fuel depth bs).2.2
  constructor
  · rw [parseValue, skipSpace_cons rfl, ← hItems]
    simp only [hSkip]
    split
    next hClose => exact absurd (List.cons.inj hClose).1 hBracket
    next => rfl
  · rw [parseValue, skipSpace_cons rfl, ← hMembers]
    simp only [hSkip]
    split
    next hClose => exact absurd (List.cons.inj hClose).1 hBrace
    next => rfl

theorem ParsedMember.parseMembers {fuel : Nat} {after tail : Bytes} {m : String × Doc}
    (h : ParsedMember fuel depth bs m after) :
    (skipSpace after = 0x7d :: tail → Json.parseMembers (fuel + 1) depth bs = some ([m], tail)) ∧
    (skipSpace after = 0x2c :: tail → Json.parseMembers (fuel + 1) depth bs =
      (Json.parseMembers fuel depth tail).map fun r => (m :: r.1, r.2)) := by
  obtain ⟨hOpen, hName, hColon, hValue⟩ := h
  constructor <;> intro hSign <;>
    simp only [Json.parseMembers, hOpen, hName, Option.bind_some, hColon, hValue, hSign]

/-- Every text of the grammar is read. -/
theorem Derives.read {n : Nonterminal} (h : Derives nulls n depth bs) : n.Read nulls depth bs := by
  induction h with
  | null hNulls =>
      intro fuel rest hFuel _
      obtain ⟨fuel, rfl⟩ : ∃ m, fuel = m + 1 := ⟨fuel - 1, by simp at hFuel; omega⟩
      exact ⟨.null, rfl, fun hn => by simp [hn] at hNulls⟩
  | literalTrue =>
      intro fuel rest hFuel _
      obtain ⟨fuel, rfl⟩ : ∃ m, fuel = m + 1 := ⟨fuel - 1, by simp at hFuel; omega⟩
      exact ⟨.bool true, rfl, fun _ => rfl⟩
  | literalFalse =>
      intro fuel rest hFuel _
      obtain ⟨fuel, rfl⟩ : ∃ m, fuel = m + 1 := ⟨fuel - 1, by simp at hFuel; omega⟩
      exact ⟨.bool false, rfl, fun _ => rfl⟩
  | @number depth lit h =>
      intro fuel rest hFuel hRest
      let n : Number := ⟨lit, isNumber_iff_numberText.mpr h⟩
      obtain ⟨b, bs, hLit, -⟩ := n.exists_cons
      have hLength : 0 < lit.length := List.length_pos_of_ne_nil (by rw [show lit = b :: bs from hLit]; simp)
      obtain ⟨fuel, rfl⟩ : ∃ m, fuel = m + 1 := ⟨fuel - 1, by omega⟩
      exact ⟨.num n, parseValue_number n fuel depth hRest, fun _ => rfl⟩
  | @string depth text h =>
      intro fuel rest hFuel _
      have hLength : 0 < text.length := by
        obtain ⟨cs, rfl, -⟩ := h
        simp
      obtain ⟨fuel, rfl⟩ : ∃ m, fuel = m + 1 := ⟨fuel - 1, by omega⟩
      obtain ⟨s, tail, hText, hString⟩ := h.parseString rest
      refine ⟨.str s, ?_, fun _ => rfl⟩
      rw [hText, parseValue, skipSpace_cons rfl]
      simp only [hString, Option.map_some]
  | @emptyArray depth w hw =>
      intro fuel rest hFuel _
      obtain ⟨fuel, rfl⟩ : ∃ m, fuel = m + 1 := ⟨fuel - 1, by simp at hFuel; omega⟩
      refine ⟨.arr [], ?_, fun _ => rfl⟩
      rw [List.cons_append, List.append_assoc, parseValue, skipSpace_cons rfl]
      simp only [skipSpace_spaces hw, List.singleton_append, skipSpace_cons (b := 0x5d) rfl]
  | @emptyObject depth w hw =>
      intro fuel rest hFuel _
      obtain ⟨fuel, rfl⟩ : ∃ m, fuel = m + 1 := ⟨fuel - 1, by simp at hFuel; omega⟩
      refine ⟨.obj [], ?_, fun _ => rfl⟩
      rw [List.cons_append, List.append_assoc, parseValue, skipSpace_cons rfl]
      simp only [skipSpace_spaces hw, List.singleton_append, skipSpace_cons (b := 0x7d) rfl]
  | @array depth es h ih =>
      intro fuel rest hFuel _
      simp only [List.length_cons, List.length_append, List.length_nil] at hFuel
      obtain ⟨fuel, rfl⟩ : ∃ m, fuel = m + 1 := ⟨fuel - 1, by omega⟩
      obtain ⟨items, hItems, hNull⟩ := ih fuel rest (by omega)
      refine ⟨.arr items, ?_, fun hn => (nullFreeItems_iff items).mpr (hNull hn)⟩
      rw [List.cons_append, List.append_assoc, List.singleton_append,
        (parseValue_container (h.head _)).1, hItems]
      rfl
  | @object depth ms h ih =>
      intro fuel rest hFuel _
      simp only [List.length_cons, List.length_append, List.length_nil] at hFuel
      obtain ⟨fuel, rfl⟩ : ∃ m, fuel = m + 1 := ⟨fuel - 1, by omega⟩
      obtain ⟨members, hMembers, hNull⟩ := ih fuel rest (by omega)
      refine ⟨.obj members, ?_, fun hn => (nullFreeMembers_iff members).mpr (hNull hn)⟩
      rw [List.cons_append, List.append_assoc, List.singleton_append,
        (parseValue_container (h.head _)).2, hMembers]
      rfl
  | @element depth w v w' hw h hw' ih =>
      intro fuel rest hFuel hRest
      simp only [List.length_append] at hFuel
      obtain ⟨d, hValue, hNull⟩ := ih fuel (w' ++ rest) (by omega) (stops_space hw' hRest)
      refine ⟨d, w' ++ rest, ?_, skipSpace_spaces hw' rest, hNull⟩
      rw [List.append_assoc, List.append_assoc, ← (parse_skipSpace _ _ _).1, skipSpace_spaces hw,
        (parse_skipSpace _ _ _).1, hValue]
  | lastElement h ih =>
      intro fuel rest hFuel
      obtain ⟨fuel, rfl⟩ : ∃ m, fuel = m + 1 := ⟨fuel - 1, by omega⟩
      obtain ⟨d, after, hValue, hAfter, hNull⟩ := ih fuel (0x5d :: rest) (by omega) (stops_bracket rest)
      refine ⟨[d], ?_, by simpa using hNull⟩
      rw [skipSpace_cons rfl] at hAfter
      simp only [parseItems, hValue, Option.bind_some, hAfter]
  | @moreElements depth e es h hs ih ihs =>
      intro fuel rest hFuel
      simp only [List.length_append, List.length_cons] at hFuel
      obtain ⟨fuel, rfl⟩ : ∃ m, fuel = m + 1 := ⟨fuel - 1, by omega⟩
      obtain ⟨d, after, hValue, hAfter, hNull⟩ :=
        ih fuel (0x2c :: (es ++ 0x5d :: rest)) (by omega) (stops_comma _)
      obtain ⟨items, hItems, hNulls⟩ := ihs fuel rest (by omega)
      refine ⟨d :: items, ?_, fun hn => List.forall_mem_cons.mpr ⟨hNull hn, hNulls hn⟩⟩
      rw [skipSpace_cons rfl] at hAfter
      rw [List.append_assoc, List.cons_append]
      simp only [parseItems, hValue, Option.bind_some, hAfter, hItems, Option.map_some]
  | @member depth w name w' e hw hName hw' h ih =>
      intro fuel rest hFuel hRest
      simp only [List.length_append, List.length_cons] at hFuel
      obtain ⟨k, tail, hText, hString⟩ := hName.parseString (w' ++ 0x3a :: (e ++ rest))
      obtain ⟨d, after, hValue, hAfter, hNull⟩ := ih fuel rest (by omega) hRest
      have hOpen : skipSpace (w ++ (name ++ (w' ++ 0x3a :: e)) ++ rest) = 0x22 :: tail := by
        simp only [List.append_assoc, List.cons_append, skipSpace_spaces hw, hText]
        rfl
      have hColon : skipSpace (w' ++ 0x3a :: (e ++ rest)) = 0x3a :: (e ++ rest) :=
        skipSpace_spaces hw' _
      exact ⟨(k, d), after, .mk hOpen hString hColon hValue, hAfter, hNull⟩
  | lastMember h ih =>
      intro fuel rest hFuel
      obtain ⟨fuel, rfl⟩ : ∃ m, fuel = m + 1 := ⟨fuel - 1, by omega⟩
      obtain ⟨m, after, hMember, hAfter, hNull⟩ := ih fuel (0x7d :: rest) (by omega) (stops_brace rest)
      rw [skipSpace_cons rfl] at hAfter
      exact ⟨[m], hMember.parseMembers.1 hAfter, by simpa using hNull⟩
  | @moreMembers depth m ms h hs ih ihs =>
      intro fuel rest hFuel
      simp only [List.length_append, List.length_cons] at hFuel
      obtain ⟨fuel, rfl⟩ : ∃ m, fuel = m + 1 := ⟨fuel - 1, by omega⟩
      obtain ⟨m, after, hMember, hAfter, hNull⟩ :=
        ih fuel (0x2c :: (ms ++ 0x7d :: rest)) (by omega) (stops_comma _)
      obtain ⟨members, hMembers, hNulls⟩ := ihs fuel rest (by omega)
      refine ⟨m :: members, ?_, fun hn => List.forall_mem_cons.mpr ⟨hNull hn, hNulls hn⟩⟩
      rw [skipSpace_cons rfl] at hAfter
      rw [List.append_assoc, List.cons_append, hMember.parseMembers.2 hAfter, hMembers]
      rfl

/-- A text is one value of the grammar with white space around it exactly if it is
read to its end; without `null` exactly if the document holds none. -/
theorem derives_element_iff :
    Derives nulls .element maxNestingDepth bs ↔
      ∃ d, parseWhole bs = some d ∧ (nulls = false → d.nullFree = true) := by
  constructor
  · intro h
    obtain ⟨d, after, hValue, hAfter, hNull⟩ := h.read (2 * bs.length + 2) [] (by omega) stops_nil
    rw [List.append_nil] at hValue
    refine ⟨d, ?_, hNull⟩
    simp only [parseWhole, parse, hValue, Option.bind_some, hAfter]
    rfl
  · rintro ⟨d, hWhole, hNull⟩
    obtain ⟨⟨e, rest⟩, hParse, hEnd⟩ := Option.bind_eq_some_iff.mp hWhole
    split_ifs at hEnd with hRest
    cases hEnd
    obtain ⟨w, v, rfl, hw, hv⟩ := (Derives.of_parse nulls _).1 hParse hNull
    obtain ⟨t, hText, ht⟩ := hv.element_of_after hw hRest
    rw [hText, List.append_nil]
    exact ht

end Json
