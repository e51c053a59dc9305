import Mathlib.Data.List.Basic

/-! Byte strings and UTF-8. A byte string is a list of octets; a text is a
Lean `String`, so it is a sequence of Unicode scalar values. Decoding follows
the convention of lenient readers: an octet which starts no well-formed
sequence is read alone, as the replacement character. -/
namespace Codec

abbrev Bytes := List UInt8

/-- The octets of a text. -/
def utf8 (s : String) : Bytes := s.toByteArray.data.toList

/-- U+FFFD, read in place of an ill-formed octet. -/
def replacementChar : Char := Char.ofNat 0xFFFD

/-- The character a well-formed sequence at the head of a byte string stands for. -/
def decodeHead (bs : Bytes) : Option Char := (bs.take 4).toByteArray.utf8DecodeChar? 0

/-- The first character of a byte string and the number of octets it takes. An octet
below 128 is a character of its own. -/
def decodeRune : Bytes → Char × Nat
  | [] => (replacementChar, 1)
  | b :: bs =>
      if b.toNat < 128 then (Char.ofNat b.toNat, 1)
      else
        match decodeHead (b :: bs) with
        | some c => (c, c.utf8Size)
        | none => (replacementChar, 1)

theorem decodeHead_encode (c : Char) (rest : Bytes) :
    decodeHead (String.utf8EncodeChar c ++ rest) = some c := by
  have hLength : (String.utf8EncodeChar c).length ≤ 4 := by
    rw [String.length_utf8EncodeChar]
    exact c.utf8Size_le_four
  rw [decodeHead, List.take_append, List.take_of_length_le hLength, List.toByteArray_append]
  exact ByteArray.utf8DecodeChar?_utf8EncodeChar_append

variable {b : UInt8} {c : Char}

theorem encode_ascii (hb : b.toNat < 128) : String.utf8EncodeChar (Char.ofNat b.toNat) = [b] := by
  have hVal : (Char.ofNat b.toNat).val.toNat = b.toNat := by
    rw [Char.ofNat, dif_pos (Or.inl (by omega))]
    rfl
  rw [String.utf8EncodeChar, hVal, if_pos (by omega), UInt8.ofNat_toNat]

/-- An octet below 128 starts the encoding of one character only. -/
theorem eq_of_encode_cons {bs : Bytes} (h : String.utf8EncodeChar c = b :: bs)
    (hb : b.toNat < 128) : c = Char.ofNat b.toNat := by
  have hLong := decodeHead_encode c []
  have hShort := decodeHead_encode (Char.ofNat b.toNat) bs
  rw [h, List.append_nil] at hLong
  rw [encode_ascii hb, List.singleton_append, hLong] at hShort
  exact Option.some.inj hShort

theorem decodeRune_encode (c : Char) (rest : Bytes) :
    decodeRune (String.utf8EncodeChar c ++ rest) = (c, c.utf8Size) := by
  obtain ⟨b, bs, hCons⟩ := List.exists_cons_of_ne_nil (String.utf8EncodeChar_ne_nil (c := c))
  have hHead := decodeHead_encode c rest
  rw [hCons, List.cons_append] at hHead ⊢
  rw [decodeRune, hHead]
  split
  next hb =>
    have hChar := eq_of_encode_cons hCons hb
    have hSize : c.utf8Size = 1 := by
      rw [← String.length_utf8EncodeChar, hChar, encode_ascii hb]
      rfl
    rw [hSize, hChar]
  next => rfl

theorem encode_ne_nil (c : Char) : String.utf8EncodeChar c ≠ [] := String.utf8EncodeChar_ne_nil

theorem drop_encode (c : Char) (rest : Bytes) :
    (String.utf8EncodeChar c ++ rest).drop c.utf8Size = rest := by
  rw [← String.length_utf8EncodeChar c]
  exact List.drop_left

/-- The octets of a character above 127 are all above 127. -/
theorem encode_high (h : 127 < c.val.toNat) : ∀ b ∈ String.utf8EncodeChar c, 128 ≤ b.toNat := by
  have hByte : ∀ n, 128 ≤ n → n < 256 → 128 ≤ (UInt8.ofNat n).toNat := by
    intro n hLow hHigh
    rw [UInt8.toNat_ofNat']
    omega
  unfold String.utf8EncodeChar
  generalize c.val.toNat = v at h
  intro b hb
  rw [if_neg (by omega)] at hb
  split_ifs at hb <;> simp only [List.mem_cons, List.not_mem_nil, or_false] at hb
  · rcases hb with rfl | rfl <;> exact hByte _ (by omega) (by omega)
  · rcases hb with rfl | rfl | rfl <;> exact hByte _ (by omega) (by omega)
  · rcases hb with rfl | rfl | rfl | rfl <;> exact hByte _ (by omega) (by omega)

/-- A decoded sequence is the encoding of its character. -/
theorem take_of_decodeHead {bs : Bytes} (h : decodeHead bs = some c) :
    bs.take c.utf8Size = String.utf8EncodeChar c := by
  have hEncode := String.toByteArray_utf8EncodeChar_of_utf8DecodeChar?_eq_some h
  have hList := congrArg (fun a : ByteArray => a.data.toList) hEncode
  simp only [List.data_toByteArray, ByteArray.data_extract, Array.toList_extract,
    List.extract_eq_take_drop, List.drop_zero, Nat.sub_zero, List.take_take] at hList
  rw [hList, Nat.min_eq_left c.utf8Size_le_four]

/-- Behind an octet above 127 `decodeRune` takes only such octets. -/
theorem decodeRune_high (hb : 128 ≤ b.toNat) (bs : Bytes) :
    0 < (decodeRune (b :: bs)).2 ∧
      ∀ x ∈ (b :: bs).take (decodeRune (b :: bs)).2, 128 ≤ x.toNat := by
  rw [decodeRune, if_neg (by omega)]
  cases hHead : decodeHead (b :: bs) with
  | none => simpa using hb
  | some c =>
      have hTake := take_of_decodeHead hHead
      refine ⟨c.utf8Size_pos, ?_⟩
      simp only [hTake]
      apply encode_high
      -- A character up to 127 is encoded by itself, so it would be the octet `b`.
      by_contra hLow
      rw [String.utf8EncodeChar, if_pos (by omega)] at hTake
      cases hSize : c.utf8Size with
      | zero => exact absurd hSize (Nat.ne_of_gt c.utf8Size_pos)
      | succ n =>
          rw [hSize, List.take_succ_cons] at hTake
          have hByte := congrArg UInt8.toNat (List.cons.inj hTake).1
          rw [UInt8.toNat_ofNat'] at hByte
          omega

/-- UTF-8 is a prefix code, so equal encodings come from equal texts. -/
theorem flatMap_encode_injective :
    Function.Injective (fun cs : List Char => cs.flatMap String.utf8EncodeChar) := by
  intro cs
  induction cs with
  | nil =>
      intro ds h
      cases ds with
      | nil => rfl
      | cons d ds =>
          simp only [List.flatMap_nil, List.flatMap_cons] at h
          exact absurd (List.append_eq_nil_iff.mp h.symm).1 (encode_ne_nil d)
  | cons c cs ih =>
      intro ds h
      cases ds with
      | nil =>
          simp only [List.flatMap_nil, List.flatMap_cons] at h
          exact absurd (List.append_eq_nil_iff.mp h).1 (encode_ne_nil c)
      | cons d ds =>
          simp only [List.flatMap_cons] at h
          have hHead := congrArg decodeRune h
          rw [decodeRune_encode, decodeRune_encode] at hHead
          have hChar : c = d := congrArg Prod.fst hHead
          subst d
          have hTail := ih (List.append_cancel_left h)
          rw [hTail]

theorem utf8_ofList (cs : List Char) : utf8 (String.ofList cs) = cs.flatMap String.utf8EncodeChar := by
  have hBytes : (String.ofList cs).toByteArray = (cs.flatMap String.utf8EncodeChar).toByteArray := rfl
  rw [utf8, hBytes, List.data_toByteArray]

theorem utf8_eq_flatMap (s : String) : utf8 s = s.toList.flatMap String.utf8EncodeChar := by
  rw [← utf8_ofList, String.ofList_toList]

theorem utf8_injective : Function.Injective utf8 := by
  intro s t h
  rw [utf8_eq_flatMap, utf8_eq_flatMap] at h
  have hList := flatMap_encode_injective h
  rw [← String.ofList_toList (s := s), ← String.ofList_toList (s := t), hList]

/-- Character by character, for at most `fuel` characters. -/
def decodeRunes : Nat → Bytes → List Char
  | 0, _ => []
  | _, [] => []
  | fuel + 1, bs => (decodeRune bs).1 :: decodeRunes fuel (bs.drop (decodeRune bs).2)

/-- The characters of a text. -/
def chars (s : String) : List Char := decodeRunes (utf8 s).length (utf8 s)

theorem decodeRunes_encode (cs : List Char) {fuel : Nat}
    (hFuel : (cs.flatMap String.utf8EncodeChar).length ≤ fuel) :
    decodeRunes fuel (cs.flatMap String.utf8EncodeChar) = cs := by
  induction cs generalizing fuel with
  | nil => cases fuel <;> rfl
  | cons c cs ih =>
      obtain ⟨b, bs, hCons⟩ := List.exists_cons_of_ne_nil (encode_ne_nil c)
      rw [List.flatMap_cons, List.length_append, hCons, List.length_cons] at hFuel
      obtain ⟨fuel, rfl⟩ : ∃ n, fuel = n + 1 := ⟨fuel - 1, by omega⟩
      have hRune := decodeRune_encode c (cs.flatMap String.utf8EncodeChar)
      have hDrop := drop_encode c (cs.flatMap String.utf8EncodeChar)
      rw [List.flatMap_cons]
      rw [hCons, List.cons_append] at hRune hDrop ⊢
      rw [decodeRunes, hRune]
      · dsimp only
        rw [hDrop, ih (by omega)]
      · simp

@[simp] theorem chars_eq (s : String) : chars s = s.toList := by
  rw [chars, utf8_eq_flatMap, decodeRunes_encode _ (Nat.le_refl _)]

end Codec
