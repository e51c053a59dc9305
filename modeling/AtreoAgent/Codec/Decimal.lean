import AtreoAgent.Codec.Utf8

/-! Decimal texts of integers. -/
namespace Codec

/-- `strconv.Itoa`. -/
def itoa (n : Int) : Bytes := utf8 (toString n)

theorem digitChar_injective {m n : Nat} (hm : m < 10) (hn : n < 10)
    (h : Nat.digitChar m = Nat.digitChar n) : m = n := by
  have hAll : ∀ m < 10, ∀ n < 10, Nat.digitChar m = Nat.digitChar n → m = n := by decide
  exact hAll m hm n hn h

theorem toDigits_injective (m : Nat) : ∀ n, Nat.toDigits 10 m = Nat.toDigits 10 n → m = n := by
  induction m using Nat.strongRecOn with
  | ind m ih =>
      intro n h
      have hLong : ∀ k, ¬ k < 10 →
          Nat.toDigits 10 k = Nat.toDigits 10 (k / 10) ++ [Nat.digitChar (k % 10)] := fun k hk =>
        Nat.toDigits_of_base_le (by decide) (by omega)
      -- A text of one digit is not one of several.
      have hApart : ∀ j k, j < 10 → ¬ k < 10 → Nat.toDigits 10 j ≠ Nat.toDigits 10 k := by
        intro j k hj hk hEq
        rw [Nat.toDigits_of_lt_base hj, hLong k hk, ← List.nil_append [Nat.digitChar j]] at hEq
        have hNil := (List.append_inj' hEq rfl).1
        exact Nat.toDigits_ne_nil hNil.symm
      by_cases hm : m < 10 <;> by_cases hn : n < 10
      · rw [Nat.toDigits_of_lt_base hm, Nat.toDigits_of_lt_base hn] at h
        exact digitChar_injective hm hn (List.cons.inj h).1
      · exact absurd h (hApart m n hm hn)
      · exact absurd h.symm (hApart n m hn hm)
      · rw [hLong m hm, hLong n hn] at h
        obtain ⟨hInit, hLast⟩ := List.append_inj' h rfl
        have hQuot := ih (m / 10) (by omega) (n / 10) hInit
        have hRem := digitChar_injective (Nat.mod_lt m (by decide)) (Nat.mod_lt n (by decide))
          (List.cons.inj hLast).1
        omega

theorem itoa_injective : Function.Injective itoa := by
  intro a b h
  have hText : toString a = toString b := utf8_injective h
  have hNat : ∀ m : Nat, (toString m).toList = Nat.toDigits 10 m := fun m => by
    simp [toString, Nat.repr]
  have hHead : ∀ m n : Nat, (toString (Int.ofNat m)).toList ≠ (toString (Int.negSucc n)).toList := by
    intro m n hEq
    have hDash : '-' ∈ Nat.toDigits 10 m := by
      rw [← hNat, show (toString m).toList = _ from hEq]
      simp [toString, Int.repr]
    have hDigit := Nat.isDigit_of_mem_toDigits (by decide) (by decide) hDash
    cases hDigit
  cases a with
  | ofNat m =>
      cases b with
      | ofNat n =>
          have hDigits : Nat.toDigits 10 m = Nat.toDigits 10 n := by
            rw [← hNat, ← hNat]
            exact congrArg String.toList hText
          exact congrArg Int.ofNat (toDigits_injective m n hDigits)
      | negSucc n => exact absurd (congrArg String.toList hText) (hHead m n)
  | negSucc m =>
      cases b with
      | ofNat n => exact absurd (congrArg String.toList hText).symm (hHead n m)
      | negSucc n =>
          have hRest : "-" ++ toString (m + 1) = "-" ++ toString (n + 1) := hText
          have hDigits : Nat.toDigits 10 (m + 1) = Nat.toDigits 10 (n + 1) := by
            rw [← hNat, ← hNat]
            simpa using congrArg String.toList hRest
          have hSucc := toDigits_injective (m + 1) (n + 1) hDigits
          exact congrArg Int.negSucc (Nat.succ.inj hSucc)

end Codec
