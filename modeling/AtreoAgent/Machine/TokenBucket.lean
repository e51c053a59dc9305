import Mathlib.Algebra.Order.Field.Basic
import Mathlib.Tactic.Linarith

/-! Token buckets. A bucket is filled at a steady rate up to its capacity and gives one
token at a time. What is taken from it in a window is paid from what it may hold when the
window opens and what flows into it until the window closes. -/
namespace TokenBucket

section Definitions

variable {K : Type} [Field K] [LinearOrder K]

/-- What a bucket holds after it has been filled for some time. -/
def refill (cap rate tokens elapsed : K) : K := min cap (tokens + elapsed * rate)

/-- Whether a token can be taken. -/
def enough (level : K) : Bool := 1 ≤ level

/-- What is left after a token has been asked for. -/
def spend (level : K) : K := if enough level then level - 1 else level

/-- What can still be taken from a bucket in the window from `opens` to `closes`, seen at
`now` when the bucket holds `level`. -/
def allowance (cap rate opens closes now level : K) : K :=
  if now < opens then cap + (closes - opens) * rate
  else if closes < now then 0
  else level + (closes - now) * rate

variable {cap rate tokens elapsed level : K}

theorem refill_le : refill cap rate tokens elapsed ≤ cap := min_le_left _ _

theorem refill_le_add : refill cap rate tokens elapsed ≤ tokens + elapsed * rate := min_le_right _ _

theorem refill_zero (hLevel : tokens ≤ cap) : refill cap rate tokens 0 = tokens := by
  rw [refill, zero_mul, add_zero, min_eq_right hLevel]

/-- A token given is a token less. -/
theorem spend_add : spend level + (if enough level then 1 else 0) = level := by
  rw [spend]
  split
  · exact sub_add_cancel level 1
  · exact add_zero level

end Definitions

variable {K : Type} [Field K] [LinearOrder K] [IsStrictOrderedRing K]

section Level

variable {cap rate tokens elapsed later level : K}

theorem refill_nonneg (hCap : 0 ≤ cap) (hTokens : 0 ≤ tokens) (hFlow : 0 ≤ elapsed * rate) :
    0 ≤ refill cap rate tokens elapsed := le_min hCap (add_nonneg hTokens hFlow)

/-- A bucket is full once its whole capacity has flowed into it. -/
theorem refill_eq_cap (hTokens : 0 ≤ tokens) (hFull : cap ≤ elapsed * rate) :
    refill cap rate tokens elapsed = cap :=
  min_eq_left (hFull.trans (le_add_of_nonneg_left hTokens))

theorem refill_cap (hFlow : 0 ≤ elapsed * rate) : refill cap rate cap elapsed = cap :=
  min_eq_left (le_add_of_nonneg_right hFlow)

/-- Filling in two steps is filling once. -/
theorem refill_refill (hFlow : 0 ≤ later * rate) :
    refill cap rate (refill cap rate tokens elapsed) later =
      refill cap rate tokens (elapsed + later) := by
  have hFull : cap ≤ cap + later * rate := le_add_of_nonneg_right hFlow
  rw [refill, refill, refill, min_add, ← min_assoc, min_eq_left hFull, add_mul, add_assoc]

theorem spend_le : spend level ≤ level := by
  rw [spend]
  split
  · exact sub_le_self level zero_le_one
  · exact le_refl level

theorem spend_nonneg (h : 0 ≤ level) : 0 ≤ spend level := by
  rw [spend, enough]
  split
  next hEnough => exact sub_nonneg.mpr (of_decide_eq_true hEnough)
  next => exact h

end Level

section Window

variable {cap rate opens closes now later level held : K}

theorem allowance_nonneg (hCap : 0 ≤ cap) (hRate : 0 ≤ rate) (hWindow : opens ≤ closes)
    (hLevel : 0 ≤ level) : 0 ≤ allowance cap rate opens closes now level := by
  rw [allowance]
  split_ifs with hEarly hLate
  · exact add_nonneg hCap (mul_nonneg (sub_nonneg.mpr hWindow) hRate)
  · exact le_refl 0
  · exact add_nonneg hLevel (mul_nonneg (sub_nonneg.mpr (not_lt.mp hLate)) hRate)

theorem allowance_le (hCap : 0 ≤ cap) (hRate : 0 ≤ rate) (hWindow : opens ≤ closes)
    (hLevel : level ≤ cap) :
    allowance cap rate opens closes now level ≤ cap + (closes - opens) * rate := by
  rw [allowance]
  split_ifs with hEarly hLate
  · exact le_refl _
  · exact add_nonneg hCap (mul_nonneg (sub_nonneg.mpr hWindow) hRate)
  · have hShorter : closes - now ≤ closes - opens := sub_le_sub_left (not_lt.mp hEarly) closes
    exact add_le_add hLevel (mul_le_mul_of_nonneg_right hShorter hRate)

/-- Time alone adds nothing: what flows in has been counted. -/
theorem allowance_wait (hCap : 0 ≤ cap) (hRate : 0 ≤ rate) (hWindow : opens ≤ closes)
    (hLater : now ≤ later) (hLevel : 0 ≤ level) (hHeld : held ≤ cap)
    (hFlow : held ≤ level + (later - now) * rate) :
    allowance cap rate opens closes later held ≤ allowance cap rate opens closes now level := by
  by_cases hEarly : now < opens
  · have hNow : allowance cap rate opens closes now level = cap + (closes - opens) * rate :=
      if_pos hEarly
    rw [hNow]
    exact allowance_le hCap hRate hWindow hHeld
  by_cases hLate : closes < later
  · have hClosed : allowance cap rate opens closes later held = 0 := by
      rw [allowance, if_neg (not_lt.mpr (hWindow.trans hLate.le)), if_pos hLate]
    rw [hClosed]
    exact allowance_nonneg hCap hRate hWindow hLevel
  · have hOpens := not_lt.mp hEarly
    have hCloses := not_lt.mp hLate
    rw [allowance, if_neg (not_lt.mpr (hOpens.trans hLater)), if_neg hLate, allowance,
      if_neg hEarly, if_neg (not_lt.mpr (hLater.trans hCloses))]
    have hSplit : (later - now) * rate + (closes - later) * rate = (closes - now) * rate := by
      rw [← add_mul, sub_add_sub_cancel']
    linarith

/-- A token given inside the window is paid from the allowance. -/
theorem allowance_spend :
    allowance cap rate opens closes now (spend level) +
        (if enough level ∧ opens ≤ now ∧ now ≤ closes then 1 else 0) ≤
      allowance cap rate opens closes now level := by
  rw [allowance, allowance]
  split_ifs with hEarly hGiven hLate hGiven hGiven
  · exact absurd hGiven.2.1 (not_le.mpr hEarly)
  · exact (add_zero _).le
  · exact absurd hGiven.2.2 (not_le.mpr hLate)
  · exact (add_zero _).le
  · have hPaid : spend level + (if enough level then 1 else 0) = level := spend_add
    rw [if_pos hGiven.1] at hPaid
    linarith
  · have hLeft : spend level ≤ level := spend_le
    linarith

end Window

end TokenBucket
