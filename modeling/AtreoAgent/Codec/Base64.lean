import AtreoAgent.Codec.Utf8

/-! Standard base64 with padding, and hexadecimal. The base64 reader skips line
breaks, asks for complete padding and does not look at the unused low bits of
the last digit, so several texts may stand for one byte string. -/
namespace Codec

/-- The digit for a six-bit value: `A-Z`, `a-z`, `0-9`, `+`, `/`. -/
def base64Digit (n : Nat) : UInt8 :=
  if n < 26 then UInt8.ofNat (65 + n)
  else if n < 52 then UInt8.ofNat (71 + n)
  else if n < 62 then UInt8.ofNat (n - 4)
  else if n = 62 then 43 else 47

/-- The six-bit value of a digit. -/
def base64Value (b : UInt8) : Option Nat :=
  let n := b.toNat
  if 65 ≤ n ∧ n ≤ 90 then some (n - 65)
  else if 97 ≤ n ∧ n ≤ 122 then some (n - 71)
  else if 48 ≤ n ∧ n ≤ 57 then some (n + 4)
  else if n = 43 then some 62
  else if n = 47 then some 63
  else none

/-- The padding sign `=`. -/
def base64Pad : UInt8 := 61

def base64Encode : Bytes → Bytes
  | a :: b :: c :: rest =>
      let n := a.toNat * 65536 + b.toNat * 256 + c.toNat
      base64Digit (n / 262144) :: base64Digit (n / 4096 % 64) ::
        base64Digit (n / 64 % 64) :: base64Digit (n % 64) :: base64Encode rest
  | [a, b] =>
      let n := a.toNat * 65536 + b.toNat * 256
      [base64Digit (n / 262144), base64Digit (n / 4096 % 64), base64Digit (n / 64 % 64), base64Pad]
  | [a] =>
      let n := a.toNat * 65536
      [base64Digit (n / 262144), base64Digit (n / 4096 % 64), base64Pad, base64Pad]
  | [] => []

/-- The three octets held by four six-bit values. -/
def base64Join (w x y z : Nat) : UInt8 × UInt8 × UInt8 :=
  let n := w * 262144 + x * 4096 + y * 64 + z
  (UInt8.ofNat (n / 65536), UInt8.ofNat (n / 256), UInt8.ofNat n)

/-- Groups of four digits; padding may only close the last one. -/
def base64Groups : Bytes → Option Bytes
  | [] => some []
  | a :: b :: c :: d :: rest => do
      let w ← base64Value a
      let x ← base64Value b
      if c = base64Pad ∧ d = base64Pad ∧ rest = [] then
        some [(base64Join w x 0 0).1]
      else
        let y ← base64Value c
        if d = base64Pad ∧ rest = [] then
          let (p, q, _) := base64Join w x y 0
          some [p, q]
        else
          let z ← base64Value d
          let (p, q, r) := base64Join w x y z
          let tail ← base64Groups rest
          some (p :: q :: r :: tail)
  | _ => none

def base64Decode (bs : Bytes) : Option Bytes :=
  base64Groups (bs.filter fun b => b ≠ 10 ∧ b ≠ 13)

theorem base64Value_digit {n : Nat} (h : n < 64) : base64Value (base64Digit n) = some n := by
  have hAll : ∀ i : Fin 64, base64Value (base64Digit i.val) = some i.val := by decide
  exact hAll ⟨n, h⟩

theorem base64Digit_plain {n : Nat} (h : n < 64) :
    base64Digit n ≠ base64Pad ∧ base64Digit n ≠ 10 ∧ base64Digit n ≠ 13 ∧
      (base64Digit n).toNat < 128 := by
  have hAll : ∀ i : Fin 64, base64Digit i.val ≠ base64Pad ∧ base64Digit i.val ≠ 10 ∧
      base64Digit i.val ≠ 13 ∧ (base64Digit i.val).toNat < 128 := by decide
  exact hAll ⟨n, h⟩

private theorem ofNat_toNat_of_eq {n : Nat} (b : UInt8) (h : n % 256 = b.toNat) :
    UInt8.ofNat n = b := by
  apply UInt8.toNat_inj.mp
  simpa using h

/-- Base64 text is ASCII without line breaks. -/
theorem base64Encode_plain (bs : Bytes) :
    ∀ b ∈ base64Encode bs, b ≠ 10 ∧ b ≠ 13 ∧ b.toNat < 128 := by
  have hTop : ∀ a : UInt8, ∀ m < 65536, (a.toNat * 65536 + m) / 262144 < 64 := by
    intro a m hm
    have ha := a.toNat_lt
    omega
  have hMod : ∀ n, base64Digit (n % 64) ≠ 10 ∧ base64Digit (n % 64) ≠ 13 ∧
      (base64Digit (n % 64)).toNat < 128 := fun n =>
    (base64Digit_plain (Nat.mod_lt n (by omega))).2
  induction bs using base64Encode.induct with
  | case1 a b c rest ih =>
      have hb := b.toNat_lt
      have hc := c.toNat_lt
      intro d hd
      simp only [base64Encode, List.mem_cons, Nat.add_assoc] at hd
      rcases hd with rfl | rfl | rfl | rfl | hd
      · exact (base64Digit_plain (hTop a _ (by omega))).2
      · exact hMod _
      · exact hMod _
      · exact hMod _
      · exact ih d hd
  | case2 a b =>
      have hb := b.toNat_lt
      intro d hd
      simp only [base64Encode, List.mem_cons, List.not_mem_nil, or_false] at hd
      rcases hd with rfl | rfl | rfl | rfl
      · exact (base64Digit_plain (hTop a _ (by omega))).2
      · exact hMod _
      · exact hMod _
      · decide
  | case3 a =>
      intro d hd
      simp only [base64Encode, List.mem_cons, List.not_mem_nil, or_false] at hd
      rcases hd with rfl | rfl | rfl | rfl
      · exact (base64Digit_plain (by simpa using hTop a 0 (by omega))).2
      · exact hMod _
      · decide
      · decide
  | case4 => simp [base64Encode]

/-- Cutting into six-bit values and joining them again gives the same octets. -/
private theorem base64Join_split (n : Nat) :
    base64Join (n / 262144) (n / 4096 % 64) (n / 64 % 64) (n % 64) =
      (UInt8.ofNat (n / 65536), UInt8.ofNat (n / 256), UInt8.ofNat n) := by
  have hJoin : n / 262144 * 262144 + n / 4096 % 64 * 4096 + n / 64 % 64 * 64 + n % 64 = n := by
    omega
  simp only [base64Join, hJoin]

theorem base64Groups_encode (bs : Bytes) : base64Groups (base64Encode bs) = some bs := by
  induction bs using base64Encode.induct with
  | case1 a b c rest ih =>
      have ha := a.toNat_lt
      have hb := b.toNat_lt
      have hc := c.toNat_lt
      obtain ⟨n, hn⟩ : ∃ n, n = a.toNat * 65536 + b.toNat * 256 + c.toNat := ⟨_, rfl⟩
      have h0 : n / 262144 < 64 := by omega
      have h1 : n / 4096 % 64 < 64 := by omega
      have h2 : n / 64 % 64 < 64 := by omega
      have h3 : n % 64 < 64 := by omega
      have hp : UInt8.ofNat (n / 65536) = a := ofNat_toNat_of_eq a (by omega)
      have hq : UInt8.ofNat (n / 256) = b := ofNat_toNat_of_eq b (by omega)
      have hr : UInt8.ofNat n = c := ofNat_toNat_of_eq c (by omega)
      simp [base64Encode, ← hn, base64Groups, base64Value_digit h0,
        base64Value_digit h1, base64Value_digit h2, base64Value_digit h3,
        (base64Digit_plain h2).1, (base64Digit_plain h3).1, base64Join_split, ih, hp, hq, hr]
  | case2 a b =>
      have ha := a.toNat_lt
      have hb := b.toNat_lt
      obtain ⟨n, hn⟩ : ∃ n, n = a.toNat * 65536 + b.toNat * 256 := ⟨_, rfl⟩
      have h0 : n / 262144 < 64 := by omega
      have h1 : n / 4096 % 64 < 64 := by omega
      have h2 : n / 64 % 64 < 64 := by omega
      have hJoin : n / 262144 * 262144 + n / 4096 % 64 * 4096 + n / 64 % 64 * 64 = n := by omega
      have hp : UInt8.ofNat (n / 65536) = a := ofNat_toNat_of_eq a (by omega)
      have hq : UInt8.ofNat (n / 256) = b := ofNat_toNat_of_eq b (by omega)
      simp [base64Encode, ← hn, base64Groups, base64Join, base64Value_digit h0,
        base64Value_digit h1, base64Value_digit h2, (base64Digit_plain h2).1, hJoin, hp, hq]
  | case3 a =>
      have ha := a.toNat_lt
      obtain ⟨n, hn⟩ : ∃ n, n = a.toNat * 65536 := ⟨_, rfl⟩
      have h0 : n / 262144 < 64 := by omega
      have h1 : n / 4096 % 64 < 64 := by omega
      have hJoin : n / 262144 * 262144 + n / 4096 % 64 * 4096 = n := by omega
      have hp : UInt8.ofNat (n / 65536) = a := ofNat_toNat_of_eq a (by omega)
      simp [base64Encode, ← hn, base64Groups, base64Join, base64Value_digit h0,
        base64Value_digit h1, hJoin, hp]
  | case4 => rfl

/-- What the encoder writes, the reader gives back. -/
@[simp] theorem base64Decode_encode (bs : Bytes) : base64Decode (base64Encode bs) = some bs := by
  have hFilter : (base64Encode bs).filter (fun b => b ≠ 10 ∧ b ≠ 13) = base64Encode bs := by
    apply List.filter_eq_self.mpr
    intro b hb
    have hPlain := base64Encode_plain bs b hb
    simp [hPlain.1, hPlain.2.1]
  rw [base64Decode, hFilter]
  exact base64Groups_encode bs

def hexDigit (n : Nat) : UInt8 := if n < 10 then UInt8.ofNat (48 + n) else UInt8.ofNat (87 + n)

/-- The value of a hexadecimal digit, in either case. -/
def hexValue (b : UInt8) : Option Nat :=
  let n := b.toNat
  if 48 ≤ n ∧ n ≤ 57 then some (n - 48)
  else if 97 ≤ n ∧ n ≤ 102 then some (n - 87)
  else if 65 ≤ n ∧ n ≤ 70 then some (n - 55)
  else none

theorem hexValue_hexDigit {n : Nat} (h : n < 16) : hexValue (hexDigit n) = some n := by
  have hAll : ∀ i : Fin 16, hexValue (hexDigit i.val) = some i.val := by decide
  exact hAll ⟨n, h⟩

def hexDecode : Bytes → Option Bytes
  | [] => some []
  | a :: b :: rest => do
      let x ← hexValue a
      let y ← hexValue b
      let tail ← hexDecode rest
      some (UInt8.ofNat (16 * x + y) :: tail)
  | _ => none

end Codec
