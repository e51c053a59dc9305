import AtreoAgent.Codec.Utf8
import Mathlib.Algebra.Order.Group.Nat
import Mathlib.Tactic.Ring

/-! Messages of a fixed layout. A message is written part by part into a buffer; each part
is read back at its place, whatever is written behind it. A number is written as octets, the
most significant one first. -/
namespace Codec

/-- The last `n` octets of a number. -/
def bigEndian : Nat → Nat → Bytes
  | 0, _ => []
  | n + 1, v => UInt8.ofNat (v / 256 ^ n) :: bigEndian n v

def ofBigEndian (bs : Bytes) : Nat := bs.foldl (fun v b => v * 256 + b.toNat) 0

@[simp] theorem length_bigEndian (n v : Nat) : (bigEndian n v).length = n := by
  induction n with
  | zero => rfl
  | succ n ih => rw [bigEndian, List.length_cons, ih]

theorem foldl_bigEndian (n v high : Nat) :
    (bigEndian n v).foldl (fun v b => v * 256 + b.toNat) high = high * 256 ^ n + v % 256 ^ n := by
  induction n generalizing high with
  | zero => simp [bigEndian, Nat.mod_one]
  | succ n ih =>
      have hSplit : v % 256 ^ (n + 1) = v % 256 ^ n + 256 ^ n * (v / 256 ^ n % 256) :=
        Nat.mod_pow_succ
      rw [bigEndian, List.foldl_cons, ih, UInt8.toNat_ofNat', hSplit]
      ring

theorem ofBigEndian_bigEndian {n v : Nat} (h : v < 256 ^ n) : ofBigEndian (bigEndian n v) = v := by
  rw [ofBigEndian, foldl_bigEndian, Nat.mod_eq_of_lt h, Nat.zero_mul, Nat.zero_add]

variable {α : Type} {b bs : List α} {i j m n : Nat}

/-- `b[i:j]`. -/
def slice (b : List α) (i j : Nat) : List α := (b.take j).drop i

/-- The buffer with a part copied to `b[i:]`, as far as there is room. -/
def write (b : List α) (i : Nat) (bs : List α) : List α :=
  (b.take i ++ (bs ++ b.drop (i + bs.length))).take b.length

theorem slice_take (h : j ≤ n) : slice (b.take n) i j = slice b i j := by
  rw [slice, List.take_take, Nat.min_eq_left h, slice]

theorem slice_drop (b : List α) (n i j : Nat) : slice (b.drop n) i j = slice b (n + i) (n + j) := by
  rw [slice, List.take_drop, List.drop_drop, slice]

@[simp] theorem length_write (b : List α) (i : Nat) (bs : List α) :
    (write b i bs).length = b.length := by
  simp only [write, List.length_append, List.length_take, List.length_drop]
  omega

theorem slice_write (hEnd : i + bs.length = j) (h : j ≤ b.length) : slice (write b i bs) i j = bs := by
  have hFront : (b.take i).length = i := List.length_take_of_le (by omega)
  have hPart : (b.take i ++ (bs ++ b.drop j)).take j = b.take i ++ bs := by
    rw [← List.append_assoc]
    exact List.take_left' (by rw [List.length_append, hFront, hEnd])
  rw [write, slice_take h, slice, hEnd, hPart, List.drop_left' hFront]

theorem slice_write_below (hBelow : n ≤ i) (h : i ≤ b.length) :
    slice (write b i bs) m n = slice b m n := by
  have hFront : (b.take i).length = i := List.length_take_of_le h
  rw [write, slice_take (by omega), slice, List.take_append_of_le_length (by omega), List.take_take,
    Nat.min_eq_left hBelow, slice]

end Codec
