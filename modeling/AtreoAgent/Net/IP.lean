import Mathlib.Data.List.Basic

/-! IP addresses and their text. An address is sixteen octets; an IPv4 address is
kept in its mapped form. Reading accepts dotted quads without leading zeros and
IPv6 text with one ellipsis and an embedded quad at the end, and no zone. -/
namespace Net

abbrev IP := List UInt8

/-- The octets in front of a mapped IPv4 address. -/
def v4Head : List UInt8 := List.replicate 10 0 ++ [0xff, 0xff]

def ofV4 (quad : List UInt8) : IP := v4Head ++ quad

/-- The four octets of a mapped IPv4 address. -/
def to4 (ip : IP) : Option (List UInt8) := if ip.take 12 = v4Head then some (ip.drop 12) else none

/-- A decimal octet without leading zero. -/
def octet (cs : List Char) : Option UInt8 :=
  let value := cs.foldl (fun n c => 10 * n + (c.toNat - 48)) 0
  if cs = [] ∨ cs.all Char.isDigit = false ∨ (1 < cs.length ∧ cs.head? = some '0') ∨ 255 < value
  then none else some (UInt8.ofNat value)

def parseIPv4 (cs : List Char) : Option (List UInt8) :=
  match (cs.splitOn '.').mapM octet with
  | some [a, b, c, d] => some [a, b, c, d]
  | _ => none

def isHexDigit (c : Char) : Bool :=
  c.isDigit || ('a' ≤ c && c ≤ 'f') || ('A' ≤ c && c ≤ 'F')

def hexDigitValue (c : Char) : Nat :=
  if c.isDigit then c.toNat - 48 else if 'a' ≤ c then c.toNat - 87 else c.toNat - 55

/-- Groups of hexadecimal digits with colons between them, at most `left` of them. The
result holds the octets read, the place of the ellipsis and what was not read. -/
def parseGroups : Nat → List UInt8 → Option Nat → List Char →
    Option (List UInt8 × Option Nat × List Char)
  | 0, octets, ellipsis, cs => some (octets, ellipsis, cs)
  | left + 1, octets, ellipsis, cs =>
      let digits := cs.takeWhile isHexDigit
      let value := digits.foldl (fun n c => 16 * n + hexDigitValue c) 0
      let read := octets ++ [UInt8.ofNat (value / 256), UInt8.ofNat (value % 256)]
      if digits = [] ∨ 4 < digits.length then none
      else
        match cs.drop digits.length with
        | [] => some (read, ellipsis, [])
        | '.' :: _ =>
            if (ellipsis = none ∧ octets.length ≠ 12) ∨ 12 < octets.length then none
            else (parseIPv4 cs).map fun quad => (octets ++ quad, ellipsis, [])
        | [':'] => none
        | ':' :: ':' :: rest =>
            if ellipsis.isSome then none
            else if rest = [] then some (read, some read.length, [])
            else parseGroups left read (some read.length) rest
        | ':' :: rest => parseGroups left read ellipsis rest
        | _ => none

/-- Fill in what the ellipsis stands for. -/
def expand : List UInt8 × Option Nat × List Char → Option IP
  | (octets, none, []) => if octets.length = 16 then some octets else none
  | (octets, some place, []) =>
      if octets.length < 16 then
        some (octets.take place ++ List.replicate (16 - octets.length) 0 ++ octets.drop place)
      else none
  | _ => none

def parseIPv6 : List Char → Option IP
  | [':', ':'] => some (List.replicate 16 0)
  | ':' :: ':' :: rest => (parseGroups 8 [] (some 0) rest).bind expand
  | cs => (parseGroups 8 [] none cs).bind expand

/-- `net.ParseIP`. -/
def parseIP (s : String) : Option IP :=
  match s.toList.find? (fun c => c = '.' ∨ c = ':' ∨ c = '%') with
  | some '.' => (parseIPv4 s.toList).map ofV4
  | some ':' => if '%' ∈ s.toList then none else parseIPv6 s.toList
  | _ => none

/-- The eight 16-bit groups. -/
def groups : IP → List Nat
  | a :: b :: rest => (a.toNat * 256 + b.toNat) :: groups rest
  | _ => []

/-- Start and length of the first longest run of at least two zero groups. -/
def zeroRun (gs : List Nat) : Nat × Nat :=
  (List.range 8).foldl (fun best i =>
    let length := ((gs.drop i).takeWhile (· = 0)).length
    if 2 ≤ length ∧ best.2 < length then (i, length) else best) (0, 0)

def hexText (n : Nat) : List Char := Nat.toDigits 16 n

/-- Groups with a colon between each two. -/
def joinGroups (gs : List Nat) : List Char := [':'].intercalate (gs.map hexText)

def formatIPv6 (ip : IP) : List Char :=
  let gs := groups ip
  let run := zeroRun gs
  if run.2 = 0 then joinGroups gs
  else joinGroups (gs.take run.1) ++ [':', ':'] ++ joinGroups (gs.drop (run.1 + run.2))

def formatIPv4 (quad : List UInt8) : List Char :=
  ['.'].intercalate (quad.map fun b => (toString b.toNat).toList)

/-- `IP.String`. -/
def ipString (ip : IP) : String :=
  match to4 ip with
  | some quad => String.ofList (formatIPv4 quad)
  | none => String.ofList (formatIPv6 ip)

theorem octet_decimal (b : UInt8) : octet (toString b.toNat).toList = some b := by
  have hAll : ∀ i : Fin 256, octet (Nat.toDigits 10 i.val) = some (UInt8.ofNat i.val) := by
    decide +kernel
  rw [Nat.toString_eq_repr, Nat.toList_repr]
  simpa using hAll ⟨b.toNat, b.toNat_lt⟩

theorem decimal_digits (b : UInt8) : ∀ c ∈ (toString b.toNat).toList, c.isDigit = true := by
  intro c hc
  rw [Nat.toString_eq_repr, Nat.toList_repr] at hc
  exact Nat.isDigit_of_mem_toDigits (by decide) (by decide) hc

/-- A dotted quad is read as its octets. -/
theorem parseIPv4_format (a b c d : UInt8) : parseIPv4 (formatIPv4 [a, b, c, d]) = some [a, b, c, d] := by
  have hSplit : (formatIPv4 [a, b, c, d]).splitOn '.' =
      [a, b, c, d].map fun b => (toString b.toNat).toList := by
    apply List.splitOn_intercalate
    · intro l hl hDot
      obtain ⟨e, -, rfl⟩ := List.mem_map.mp hl
      exact absurd (decimal_digits e '.' hDot) (by decide)
    · simp
  simp only [parseIPv4, hSplit, List.map_cons, List.map_nil, List.mapM_cons, List.mapM_nil,
    octet_decimal]
  rfl

/-- A text of a quad determines its octets. -/
theorem quad_injective {a b c d p q r s : UInt8} :
    String.ofList (formatIPv4 [a, b, c, d]) = String.ofList (formatIPv4 [p, q, r, s]) ↔
      a = p ∧ b = q ∧ c = r ∧ d = s := by
  constructor
  · intro h
    have hParse := parseIPv4_format a b c d
    rw [String.ofList_injective h, parseIPv4_format] at hParse
    simp only [Option.some.injEq, List.cons.injEq, and_true] at hParse
    exact ⟨hParse.1.symm, hParse.2.1.symm, hParse.2.2.1.symm, hParse.2.2.2.symm⟩
  · rintro ⟨rfl, rfl, rfl, rfl⟩
    rfl

theorem formatIPv4_singleton (a : UInt8) : formatIPv4 [a] = (toString a.toNat).toList := by
  simp [formatIPv4]

theorem formatIPv4_cons (a b : UInt8) (quad : List UInt8) :
    formatIPv4 (a :: b :: quad) = (toString a.toNat).toList ++ '.' :: formatIPv4 (b :: quad) := by
  simp only [formatIPv4, List.map_cons, List.intercalate_cons_cons, List.append_assoc,
    List.singleton_append]

/-- The first sign of a dotted text that is no digit is a dot. -/
theorem find?_formatIPv4 (a b : UInt8) (quad : List UInt8) {p : Char → Bool}
    (hDigit : ∀ c, c.isDigit = true → p c = false) (hDot : p '.' = true) :
    (formatIPv4 (a :: b :: quad)).find? p = some '.' := by
  have hNone : (toString a.toNat).toList.find? p = none := by
    apply List.find?_eq_none.mpr
    intro c hc
    rw [hDigit c (decimal_digits a c hc)]
    exact Bool.false_ne_true
  rw [formatIPv4_cons, List.find?_append, hNone, List.find?_cons_of_pos hDot]
  rfl

theorem isDigit_ne {c sign : Char} (h : c.isDigit = true) (hSign : sign.isDigit = false) : c ≠ sign := by
  rintro rfl
  rw [h] at hSign
  cases hSign

theorem parseIP_quad {s : String} {a b c d : UInt8} (h : s.toList = formatIPv4 [a, b, c, d]) :
    parseIP s = some (ofV4 [a, b, c, d]) := by
  have hFirst : (formatIPv4 [a, b, c, d]).find? (fun c => c = '.' ∨ c = ':' ∨ c = '%') =
      some '.' := by
    apply find?_formatIPv4
    · intro x hx
      simp [isDigit_ne hx (show '.'.isDigit = false by decide),
        isDigit_ne hx (show ':'.isDigit = false by decide),
        isDigit_ne hx (show '%'.isDigit = false by decide)]
    · decide
  simp only [parseIP, h, hFirst, parseIPv4_format, Option.map_some]

/-- The number a text of hexadecimal digits stands for. -/
def hexNumber (cs : List Char) : Nat := cs.foldl (fun n c => 16 * n + hexDigitValue c) 0

theorem hexNumber_hexText (n : Nat) : hexNumber (hexText n) = n := by
  have hDigit : ∀ i : Fin 16, hexDigitValue (Nat.digitChar i.val) = i.val := by decide
  induction n using Nat.strongRecOn with
  | ind n ih =>
      by_cases hSmall : n < 16
      · rw [hexText, Nat.toDigits_of_lt_base hSmall]
        simpa [hexNumber] using hDigit ⟨n, hSmall⟩
      · have hRest := ih (n / 16) (by omega)
        have hLast := hDigit ⟨n % 16, Nat.mod_lt n (by omega)⟩
        rw [hexText] at hRest
        rw [hexText, Nat.toDigits_of_base_le (by omega) (by omega), hexNumber, List.foldl_append]
        simp only [hexNumber] at hRest
        rw [hRest]
        simp only [List.foldl_cons, List.foldl_nil, hLast]
        omega

theorem hexText_no_colon (n : Nat) : ':' ∉ hexText n := by
  have hDigit : ∀ i : Fin 16, Nat.digitChar i.val ≠ ':' := by decide
  induction n using Nat.strongRecOn with
  | ind n ih =>
      by_cases hSmall : n < 16
      · rw [hexText, Nat.toDigits_of_lt_base hSmall]
        simp [(hDigit ⟨n, hSmall⟩).symm]
      · rw [hexText, Nat.toDigits_of_base_le (by omega) (by omega)]
        simp only [List.mem_append, List.mem_singleton, not_or]
        exact ⟨ih (n / 16) (by omega), (hDigit ⟨n % 16, Nat.mod_lt n (by omega)⟩).symm⟩

/-- What follows the last colon. -/
def afterColon (cs : List Char) : List Char := (cs.reverse.takeWhile (· ≠ ':')).reverse

theorem afterColon_append {cs : List Char} (h : ':' ∉ cs) (front : List Char)
    (hFront : front = [] ∨ ∃ rest, front = rest ++ [':']) : afterColon (front ++ cs) = cs := by
  have hAll : ∀ c ∈ cs.reverse, (decide (c ≠ ':')) = true := by
    intro c hc
    simp only [decide_eq_true_eq]
    rintro rfl
    exact h (List.mem_reverse.mp hc)
  rw [afterColon, List.reverse_append, List.takeWhile_append_of_pos hAll]
  rcases hFront with rfl | ⟨rest, rfl⟩ <;> simp

theorem joinGroups_concat (gs : List Nat) (g : Nat) :
    ∃ front, joinGroups (gs ++ [g]) = front ++ hexText g ∧
      (front = [] ∨ ∃ rest, front = rest ++ [':']) := by
  induction gs with
  | nil => exact ⟨[], by simp [joinGroups], Or.inl rfl⟩
  | cons h gs ih =>
      obtain ⟨front, hJoin, hFront⟩ := ih
      refine ⟨hexText h ++ [':'] ++ front, ?_, Or.inr ?_⟩
      · have hCons : joinGroups (h :: (gs ++ [g])) = hexText h ++ [':'] ++ joinGroups (gs ++ [g]) := by
          cases gs <;> simp [joinGroups]
        rw [List.cons_append, hCons, hJoin, List.append_assoc _ front]
      · rcases hFront with rfl | ⟨rest, rfl⟩
        · exact ⟨hexText h, by simp⟩
        · exact ⟨hexText h ++ [':'] ++ rest, by simp⟩

/-- A run of zeros ends before a last group that is not zero. -/
theorem zeroRun_le (gs : List Nat) {g : Nat} (hg : g ≠ 0) :
    (zeroRun (gs ++ [g])).1 + (zeroRun (gs ++ [g])).2 ≤ gs.length := by
  have hCandidate : ∀ i, 2 ≤ (((gs ++ [g]).drop i).takeWhile (· = 0)).length →
      i + (((gs ++ [g]).drop i).takeWhile (· = 0)).length ≤ gs.length := by
    intro i hi
    by_cases hShort : i ≤ gs.length
    · rw [List.drop_append_of_le_length hShort] at hi ⊢
      have hTake : ((gs.drop i ++ [g]).takeWhile (· = 0)).length ≤ (gs.drop i).length := by
        induction gs.drop i with
        | nil => simp [hg]
        | cons x xs ih =>
            rw [List.cons_append, List.takeWhile_cons]
            split
            · simpa using ih
            · simp
      rw [List.length_drop] at hTake
      omega
    · rw [List.drop_of_length_le (by simp; omega)] at hi
      simp at hi
  have hFold : ∀ (is : List Nat) (best : Nat × Nat), best.1 + best.2 ≤ gs.length →
      (is.foldl (fun best i =>
        let length := (((gs ++ [g]).drop i).takeWhile (· = 0)).length
        if 2 ≤ length ∧ best.2 < length then (i, length) else best) best).1 +
      (is.foldl (fun best i =>
        let length := (((gs ++ [g]).drop i).takeWhile (· = 0)).length
        if 2 ≤ length ∧ best.2 < length then (i, length) else best) best).2 ≤ gs.length := by
    intro is
    induction is with
    | nil => intro best hBest; exact hBest
    | cons i is ih =>
        intro best hBest
        rw [List.foldl_cons]
        apply ih
        dsimp only
        split
        · rename_i hLonger
          exact hCandidate i hLonger.1
        · exact hBest
  exact hFold (List.range 8) (0, 0) (Nat.zero_le _)

/-- A last group that is not zero stands behind the last colon. -/
theorem afterColon_formatIPv6 {ip : IP} {gs : List Nat} {g : Nat} (hGroups : groups ip = gs ++ [g])
    (hg : g ≠ 0) : afterColon (formatIPv6 ip) = hexText g := by
  have hLe := zeroRun_le gs hg
  unfold formatIPv6
  rw [hGroups]
  dsimp only
  split
  · obtain ⟨front, hJoin, hFront⟩ := joinGroups_concat gs g
    rw [hJoin]
    exact afterColon_append (hexText_no_colon g) front hFront
  · rw [List.drop_append_of_le_length hLe]
    obtain ⟨front, hJoin, hFront⟩ := joinGroups_concat
      (gs.drop ((zeroRun (gs ++ [g])).1 + (zeroRun (gs ++ [g])).2)) g
    rw [hJoin, ← List.append_assoc]
    apply afterColon_append (hexText_no_colon g)
    rcases hFront with rfl | ⟨rest, rfl⟩
    · right
      exact ⟨joinGroups ((gs ++ [g]).take (zeroRun (gs ++ [g])).1) ++ [':'], by simp⟩
    · right
      exact ⟨joinGroups ((gs ++ [g]).take (zeroRun (gs ++ [g])).1) ++ [':', ':'] ++ rest, by simp⟩

theorem hexText_injective {m n : Nat} (h : hexText m = hexText n) : m = n := by
  rw [← hexNumber_hexText m, h, hexNumber_hexText]

/-- The last octet of an address only enters its last group. -/
theorem groups_set_last {ip : IP} (h : ip.length = 16) :
    ∃ gs, ∃ high : UInt8, ∀ low : UInt8,
      groups (ip.set 15 low) = gs ++ [high.toNat * 256 + low.toNat] := by
  match ip, h with
  | [a, b, c, d, e, f, g, h, i, j, k, l, m, n, o, _], _ =>
      exact ⟨groups [a, b, c, d, e, f, g, h, i, j, k, l, m, n], o, fun low => rfl⟩

/-- Addresses that differ in a last octet that is not zero have different texts. -/
theorem formatIPv6_set_last {ip : IP} (h : ip.length = 16) {x y : UInt8} (hx : x.toNat ≠ 0)
    (hy : y.toNat ≠ 0) (hText : formatIPv6 (ip.set 15 x) = formatIPv6 (ip.set 15 y)) : x = y := by
  obtain ⟨gs, high, hGroups⟩ := groups_set_last h
  have hLast := afterColon_formatIPv6 (hGroups x) (by omega)
  rw [hText, afterColon_formatIPv6 (hGroups y) (by omega)] at hLast
  have hSame := hexText_injective hLast
  exact UInt8.toNat_inj.mp (by omega)

theorem to4_set_last (ip : IP) (x : UInt8) : (to4 (ip.set 15 x)).isSome = (to4 ip).isSome := by
  simp only [to4, List.take_set_of_le (show 12 ≤ 15 by decide)]
  split <;> rfl

theorem to4_ofV4 (quad : List UInt8) : to4 (ofV4 quad) = some quad := by
  simp [to4, ofV4, v4Head]

/-- A mapped address is read off as four octets. -/
theorem exists_quad_of_to4 {ip : IP} {quad : List UInt8} (hLength : ip.length = 16)
    (h : to4 ip = some quad) : ∃ a b c d : UInt8, quad = [a, b, c, d] ∧ ip = ofV4 [a, b, c, d] := by
  unfold to4 at h
  split at h
  next hHead =>
    cases h
    have hFour : (ip.drop 12).length = 4 := by rw [List.length_drop, hLength]
    obtain ⟨a, b, c, d, hQuad⟩ := List.length_eq_four.mp hFour
    refine ⟨a, b, c, d, hQuad, ?_⟩
    rw [ofV4, ← hHead, ← hQuad, List.take_append_drop]
  · cases h

theorem length_of_expand {r : List UInt8 × Option Nat × List Char} {ip : IP}
    (h : expand r = some ip) : ip.length = 16 := by
  unfold expand at h
  split at h
  · split at h
    next hLength =>
      cases h
      exact hLength
    · cases h
  next octets place =>
    split at h
    · cases h
      have hSplit := congrArg List.length (List.take_append_drop place octets)
      simp only [List.length_append, List.length_replicate] at hSplit ⊢
      omega
    · cases h
  · cases h

/-- An address that was read has sixteen octets. -/
theorem length_of_parseIP {s : String} {ip : IP} (h : parseIP s = some ip) : ip.length = 16 := by
  unfold parseIP at h
  split at h
  · obtain ⟨quad, hQuad, rfl⟩ := Option.map_eq_some_iff.mp h
    unfold parseIPv4 at hQuad
    split at hQuad
    · cases hQuad
      rfl
    · cases hQuad
  · split at h
    · cases h
    · unfold parseIPv6 at h
      split at h
      · cases h
        rfl
      · obtain ⟨r, _, hr⟩ := Option.bind_eq_some_iff.mp h
        exact length_of_expand hr
      · obtain ⟨r, _, hr⟩ := Option.bind_eq_some_iff.mp h
        exact length_of_expand hr
  · cases h

end Net
