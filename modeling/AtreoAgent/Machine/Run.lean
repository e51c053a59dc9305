import Mathlib.Data.List.Basic

/-! Runs of a deterministic machine. A machine is a step function; a run handles a
list of inputs one after the other. A property is carried through a run when each
input that meets a condition, in the state in which it is handled, preserves it. -/
namespace Machine

variable {State Input : Type} (step : State → Input → State)

/-- The state after a list of inputs. -/
def run (s : State) (inputs : List Input) : State := inputs.foldl step s

/-- Every input meets the condition in the state in which it is handled. -/
def Meets (cond : State → Input → Prop) : State → List Input → Prop
  | _, [] => True
  | s, i :: is => cond s i ∧ Meets cond (step s i) is

variable {step} {cond : State → Input → Prop}

@[simp] theorem run_nil (s : State) : run step s [] = s := rfl

@[simp] theorem run_cons (s : State) (i : Input) (is : List Input) :
    run step s (i :: is) = run step (step s i) is := rfl

theorem run_append (s : State) (is js : List Input) :
    run step s (is ++ js) = run step (run step s is) js := List.foldl_append

variable {s : State} {is : List Input} {k n : Nat}

theorem meets_append {js : List Input} :
    Meets step cond s (is ++ js) ↔ Meets step cond s is ∧ Meets step cond (run step s is) js := by
  induction is generalizing s with
  | nil => simp [Meets]
  | cons i is ih => simp [Meets, ih, and_assoc]

/-- A condition on the input alone. -/
theorem meets_of_forall (h : ∀ i ∈ is, ∀ s, cond s i) : Meets step cond s is := by
  induction is generalizing s with
  | nil => trivial
  | cons i is ih =>
      exact ⟨h i List.mem_cons_self s, ih fun j hj => h j (List.mem_cons_of_mem _ hj)⟩

theorem Meets.take (h : Meets step cond s is) (n : Nat) : Meets step cond s (is.take n) := by
  rw [← List.take_append_drop n is, meets_append] at h
  exact h.1

/-- Two conditions that are the same in the states of an invariant, which the inputs that
meet the first preserve, are met by the same runs. -/
theorem meets_congr (Inv : State → Prop) {other : State → Input → Prop}
    (hSame : ∀ s i, Inv s → (cond s i ↔ other s i))
    (hStep : ∀ s i, Inv s → cond s i → Inv (step s i)) (hInit : Inv s) (is : List Input) :
    Meets step cond s is ↔ Meets step other s is := by
  induction is generalizing s with
  | nil => exact Iff.rfl
  | cons i is ih =>
      rw [Meets, Meets, ← hSame s i hInit]
      exact and_congr_right fun hCond => ih (hStep s i hInit hCond)

/-- What holds at the start and is preserved by every input that meets the condition
holds at the end. -/
theorem invariant_run (Inv : State → Prop) (hStep : ∀ s i, Inv s → cond s i → Inv (step s i))
    (hInit : Inv s) (h : Meets step cond s is) : Inv (run step s is) := by
  induction is generalizing s with
  | nil => exact hInit
  | cons i is ih => exact ih (hStep s i hInit h.1) h.2

/-- What every input preserves holds at the end if it holds at the start. -/
theorem invariant_always (Inv : State → Prop) (hStep : ∀ s i, Inv s → Inv (step s i))
    (hInit : Inv s) (is : List Input) : Inv (run step s is) := by
  have hMeets : Meets step (fun _ _ => True) s is := meets_of_forall fun _ _ _ => trivial
  exact invariant_run Inv (fun s i h _ => hStep s i h) hInit hMeets

/-- What holds at some point of a run and is preserved from there on holds at every later
point. -/
theorem invariant_since (Inv : State → Prop) (hStep : ∀ s i, Inv s → cond s i → Inv (step s i))
    (h : Meets step cond s is) {m : Nat} (hLe : m ≤ k) (hThen : Inv (run step s (is.take m))) :
    Inv (run step s (is.take k)) := by
  obtain ⟨d, rfl⟩ := Nat.exists_eq_add_of_le hLe
  have hTaken := h.take (m + d)
  rw [List.take_add, meets_append] at hTaken
  rw [List.take_add, run_append]
  exact invariant_run Inv hStep hThen hTaken.2

/-- A value that no step changes between two states with `P` is the same at both ends
of a run that keeps `P`. -/
theorem constant_while {Inv P : State → Prop} {α : Type} {f : State → α}
    (hStep : ∀ s i, Inv s → cond s i → Inv (step s i))
    (hSame : ∀ s i, Inv s → cond s i → P s → P (step s i) → f (step s i) = f s) (hInit : Inv s)
    (h : Meets step cond s is) (hWhile : ∀ n ≤ is.length, P (run step s (is.take n))) :
    f (run step s is) = f s := by
  induction is generalizing s with
  | nil => rfl
  | cons i is ih =>
      have hFirst : P s := hWhile 0 (Nat.zero_le _)
      have hSecond : P (step s i) := by
        simpa using hWhile 1 (by simp)
      rw [run_cons, ih (hStep s i hInit h.1) h.2, hSame s i hInit h.1 hFirst hSecond]
      intro n hn
      simpa using hWhile (n + 1) (by simpa using hn)

/-- The inputs of a run that pass the test in the state in which they are handled. -/
def occurrences (step : State → Input → State) (test : State → Input → Bool) :
    State → List Input → List Input
  | _, [] => []
  | s, i :: is =>
      if test s i then i :: occurrences step test (step s i) is
      else occurrences step test (step s i) is

section Occurrences

variable {test : State → Input → Bool}

end Occurrences

/-- The input at a position, in the state in which it is handled. -/
def At (step : State → Input → State) (s : State) (is : List Input) (n : Nat)
    (P : State → Input → Prop) : Prop :=
  ∃ i, is[n]? = some i ∧ P (run step s (is.take n)) i

theorem At.exists_state {P : State → Input → Prop} (h : At step s is n P) :
    ∃ i t, is[n]? = some i ∧ P t i := by
  obtain ⟨i, hInput, hState⟩ := h
  exact ⟨i, _, hInput, hState⟩

theorem run_take_succ {i : Input} (h : is[n]? = some i) :
    run step s (is.take (n + 1)) = step (run step s (is.take n)) i := by
  rw [List.take_add_one, h, run_append]
  rfl

/-- Each input of a run meets the condition where it is handled. -/
theorem Meets.getElem (h : Meets step cond s is) {i : Input} (hInput : is[n]? = some i) :
    cond (run step s (is.take n)) i := by
  have hTaken := h.take (n + 1)
  rw [List.take_add_one, hInput, meets_append] at hTaken
  exact hTaken.2.1

theorem meets_of_getElem (h : ∀ n i, is[n]? = some i → cond (run step s (is.take n)) i) :
    Meets step cond s is := by
  induction is generalizing s with
  | nil => trivial
  | cons i is ih => exact ⟨h 0 i rfl, ih fun n j hj => h (n + 1) j hj⟩

/-- What holds at a later point and did not hold at an earlier one was caused in between. -/
theorem exists_cause {α : Type} {P : State → α → Prop} {C : State → Input → α → Prop}
    (hStep : ∀ s i a, P (step s i) a → P s a ∨ C s i a) {a : α} {m : Nat}
    (hLater : P (run step s (is.take k)) a) (hEarlier : ¬ P (run step s (is.take m)) a)
    (hLe : m ≤ k) : ∃ n, m ≤ n ∧ n < k ∧ At step s is n fun s i => C s i a := by
  obtain ⟨d, rfl⟩ := Nat.exists_eq_add_of_le hLe
  induction d with
  | zero => exact absurd hLater hEarlier
  | succ d ih =>
      have hBefore : P (run step s (is.take (m + d))) a →
          ∃ n, m ≤ n ∧ n < m + (d + 1) ∧ At step s is n fun s i => C s i a := by
        intro hOld
        obtain ⟨n, hLow, hHigh, hAt⟩ := ih hOld (Nat.le_add_right m d)
        exact ⟨n, hLow, by omega, hAt⟩
      rw [← Nat.add_assoc] at hLater
      cases hInput : is[m + d]? with
      | none =>
          rw [List.take_add_one, hInput, Option.toList_none, List.append_nil] at hLater
          exact hBefore hLater
      | some i =>
          rw [run_take_succ hInput] at hLater
          rcases hStep _ _ _ hLater with hOld | hCause
          · exact hBefore hOld
          · exact ⟨m + d, Nat.le_add_right m d, by omega, i, hInput, hCause⟩

/-- What holds at some point and did not hold at the start has a last cause, since which it
has held. -/
theorem exists_last_cause {P : State → Prop} {C : State → Input → Prop}
    (hStep : ∀ s i, P (step s i) → P s ∨ C s i) (hInit : ¬ P s)
    (hLater : P (run step s (is.take k))) :
    ∃ n < k, At step s is n C ∧ ∀ m, n < m → m ≤ k → P (run step s (is.take m)) := by
  induction k with
  | zero => exact absurd hLater hInit
  | succ k ih =>
      have hBefore : P (run step s (is.take k)) →
          ∃ n < k + 1, At step s is n C ∧ ∀ m, n < m → m ≤ k + 1 → P (run step s (is.take m)) := by
        intro hOld
        obtain ⟨n, hn, hAt, hSince⟩ := ih hOld
        refine ⟨n, by omega, hAt, fun m hLow hHigh => ?_⟩
        rcases Nat.lt_or_eq_of_le hHigh with hLt | rfl
        · exact hSince m hLow (by omega)
        · exact hLater
      cases hInput : is[k]? with
      | none =>
          have hSame := hLater
          rw [List.take_add_one, hInput, Option.toList_none, List.append_nil] at hSame
          exact hBefore hSame
      | some i =>
          have hStepped := hLater
          rw [run_take_succ hInput] at hStepped
          rcases hStep _ _ hStepped with hOld | hCause
          · exact hBefore hOld
          · refine ⟨k, by omega, ⟨i, hInput, hCause⟩, fun m hLow hHigh => ?_⟩
            obtain rfl : m = k + 1 := by omega
            exact hLater

end Machine
