import Mathlib.Data.List.Basic

/-! Work on files that may be cut off. A job performs operations one after the
other and returns a value or an error; what it leaves behind is the list of states
that the files went through. It may be cut off between any two operations. -/
namespace Storage

variable {P D ε α β : Type}

/-- What the files hold; `none` for a file that does not exist. -/
abbrev Files (P D : Type) := P → Option D

def Files.set [DecidableEq P] (fs : Files P D) (p : P) (d : Option D) : Files P D :=
  fun q => if q = p then d else fs q

@[simp] theorem Files.set_self [DecidableEq P] (fs : Files P D) (p : P) (d : Option D) :
    fs.set p d p = d := if_pos rfl

theorem Files.set_of_ne [DecidableEq P] {fs : Files P D} {p q : P} (h : q ≠ p) (d : Option D) :
    fs.set p d q = fs q := if_neg h

/-- The states after each operation, in order, and the result. -/
def Job (P D ε α : Type) := Files P D → List (Files P D) × Except ε α

namespace Job

/-- One operation. -/
def perform (effect : Files P D → Files P D) (result : Except ε α) : Job P D ε α :=
  fun fs => ([effect fs], result)

/-- What a file holds. -/
def read (p : P) : Job P D ε (Option D) := fun fs => ([], .ok (fs p))

/-- An error unless the condition holds. -/
def ensure (e : ε) (ok : Bool) : Job P D ε Unit := fun _ => ([], if ok then .ok () else .error e)

def require (e : ε) : Option α → Job P D ε α
  | none => fun _ => ([], .error e)
  | some a => fun _ => ([], .ok a)

def final (job : Job P D ε α) (fs : Files P D) : Files P D := (job fs).1.getLastD fs

def result (job : Job P D ε α) (fs : Files P D) : Except ε α := (job fs).2

/-- The second job goes on where the first one ended. -/
def andThen (job : Job P D ε α) (next : α → Job P D ε β) : Job P D ε β := fun fs =>
  match job.result fs with
  | .error e => ((job fs).1, .error e)
  | .ok a => ((job fs).1 ++ (next a (job.final fs)).1, next a (job.final fs) |>.2)

instance : Monad (Job P D ε) where
  pure a := fun _ => ([], .ok a)
  bind := andThen

/-- The states in which the job may be found when it is cut off between two
operations, or when it has returned an error. -/
def points (job : Job P D ε α) (fs : Files P D) : List (Files P D) :=
  match job.result fs with
  | .error _ => fs :: (job fs).1
  | .ok _ => (fs :: (job fs).1).dropLast

variable {job : Job P D ε α} {fs : Files P D} {next : α → Job P D ε β} {e : ε}

theorem bind_of_error (h : job.result fs = .error e) :
    (job >>= next) fs = ((job fs).1, .error e) := by
  change job.andThen next fs = _
  rw [andThen, h]

theorem bind_of_ok {a : α} (h : job.result fs = .ok a) :
    (job >>= next) fs =
      ((job fs).1 ++ (next a (job.final fs)).1, (next a).result (job.final fs)) := by
  change job.andThen next fs = _
  rw [andThen, h]
  rfl

/-- The start and the states, but for the last one. -/
theorem dropLast_states (job : Job P D ε α) (fs : Files P D) :
    (fs :: (job fs).1).dropLast ++ [job.final fs] = fs :: (job fs).1 := by
  have hLast : (fs :: (job fs).1).getLast (List.cons_ne_nil _ _) = job.final fs := by
    rw [List.getLast_eq_getLastD, final]
  rw [← hLast, List.dropLast_append_getLast]

theorem final_mem (job : Job P D ε α) (fs : Files P D) : job.final fs ∈ fs :: (job fs).1 := by
  rw [← dropLast_states job fs]
  simp

theorem start_mem_points (h : (job fs).1 ≠ []) : fs ∈ job.points fs := by
  obtain ⟨s, states, hStates⟩ := List.exists_cons_of_ne_nil h
  rw [points, hStates]
  split <;> simp

theorem final_mem_points (h : job.result fs = .error e) : job.final fs ∈ job.points fs := by
  rw [points, h]
  exact final_mem job fs

theorem points_bind_of_error (h : job.result fs = .error e) :
    (job >>= next).points fs = job.points fs := by
  have hBind : (job >>= next).result fs = .error e := by rw [result, bind_of_error h]
  rw [points, points, hBind, h, bind_of_error h]

/-- A job is cut off in its first part or in its second. -/
theorem points_bind_of_ok {a : α} (h : job.result fs = .ok a) :
    (job >>= next).points fs =
      (fs :: (job fs).1).dropLast ++ (next a).points (job.final fs) := by
  have hResult : (job >>= next).result fs = (next a).result (job.final fs) := by
    rw [result, bind_of_ok h]
  have hStates : fs :: ((job >>= next) fs).1 =
      (fs :: (job fs).1).dropLast ++ (job.final fs :: (next a (job.final fs)).1) := by
    rw [bind_of_ok h, List.append_cons, dropLast_states, List.cons_append]
  rw [points, points, hResult, hStates]
  cases (next a).result (job.final fs) with
  | error e => rfl
  | ok b => exact List.dropLast_append_of_ne_nil (List.cons_ne_nil _ _)

theorem mem_points {s : Files P D} (h : s ∈ job.points fs) : s = fs ∨ s ∈ (job fs).1 := by
  rw [points] at h
  split at h
  · exact List.mem_cons.mp h
  · exact List.mem_cons.mp ((List.dropLast_subset _ h))

/-- Every state that the job goes through keeps to `I` if the first one does. -/
def Upholds (job : Job P D ε α) (I : Files P D → Prop) : Prop :=
  ∀ fs, I fs → ∀ s ∈ (job fs).1, I s

namespace Upholds

variable {I : Files P D → Prop}

theorem perform {effect : Files P D → Files P D} (h : ∀ fs, I fs → I (effect fs))
    (result : Except ε α) : (Job.perform effect result).Upholds I := by
  intro fs hI s hs
  obtain rfl := List.mem_singleton.mp hs
  exact h fs hI

variable {job : Job P D ε α}

/-- Jobs without operations. -/
theorem of_nil (h : ∀ fs, (job fs).1 = []) : job.Upholds I := by
  intro fs _ s hs
  rw [h fs] at hs
  cases hs

theorem require (e : ε) (o : Option α) : (Job.require e o : Job P D ε α).Upholds I :=
  of_nil fun _ => by cases o <;> rfl

theorem final (h : job.Upholds I) {fs : Files P D} (hI : I fs) : I (job.final fs) := by
  rcases List.mem_cons.mp (final_mem job fs) with hEq | hMem
  · rw [hEq]
    exact hI
  · exact h fs hI _ hMem

theorem bind {next : α → Job P D ε β} (hJob : job.Upholds I) (hNext : ∀ a, (next a).Upholds I) :
    (job >>= next).Upholds I := by
  intro fs hI s hs
  cases hResult : job.result fs with
  | error e =>
      rw [bind_of_error hResult] at hs
      exact hJob fs hI s hs
  | ok a =>
      rw [bind_of_ok hResult] at hs
      rcases List.mem_append.mp hs with hs | hs
      · exact hJob fs hI s hs
      · exact hNext a _ (hJob.final hI) s hs

theorem points (h : job.Upholds I) {fs s : Files P D} (hI : I fs) (hs : s ∈ job.points fs) :
    I s := by
  rcases mem_points hs with rfl | hs
  · exact hI
  · exact h fs hI s hs

end Upholds

end Job

end Storage
