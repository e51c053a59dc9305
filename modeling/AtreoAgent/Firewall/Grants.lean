import AtreoAgent.Firewall.Confinement

/-! Whether the grants that were set are in force. `SetPortGrants` remembers the grants
before it applies them and does nothing if they are the remembered ones, so a call that
failed makes the next one with the same grants succeed without effect. -/
namespace Firewall

open Netfilter Machine

/-- Lists that are compared position by position. -/
theorem zip_all_iff {α : Type} {same : α × α → Bool} (hSame : ∀ x y, same (x, y) = true ↔ x = y)
    {a b : List α} : (a.length = b.length && (a.zip b).all same) = true ↔ a = b := by
  induction a generalizing b with
  | nil => cases b <;> simp
  | cons x a ih =>
      cases b with
      | nil => simp
      | cons y b =>
          have hRest : ((x :: a).length = (y :: b).length && ((x :: a).zip (y :: b)).all same) =
              (same (x, y) && (a.length = b.length && (a.zip b).all same)) := by
            simp [Bool.and_left_comm]
          rw [hRest, Bool.and_eq_true, ih, hSame, List.cons_eq_cons]

theorem intsEqual_iff {a b : List Int} : intsEqual a b = true ↔ a = b :=
  zip_all_iff fun _ _ => decide_eq_true_iff

theorem grantsEqual_iff {a b : List PortGrant} : grantsEqual a b = true ↔ a = b := by
  refine zip_all_iff fun x y => ?_
  cases x
  cases y
  simp only [Bool.and_eq_true, decide_eq_true_iff, intsEqual_iff, PortGrant.mk.injEq, and_assoc]

section Calls

variable {H : Type} [DecidableEq H]

/-- The call gets as far as `Apply`. -/
def Manager.applies (m : Manager) : Call → Bool
  | .apply => true
  | .setPortGrants grants => m.enabled && !grantsEqual m.portGrants grants
  | _ => false

/-- A system with a record of whether the last `Apply` succeeded. -/
structure Tracked (H : Type) where
  system : System H
  applied : Bool

def Tracked.step (host : Host H) (s : Tracked H) (i : Input H) : Tracked H :=
  { system := s.system.step host i
    applied := if s.system.manager.applies i.call then (s.system.step host i).result.isNone
      else s.applied }

/-- A manager that has not been used, over any tables. -/
def Tracked.fresh (cfg : Config) (tables : Tables H) : Tracked H :=
  { system := { manager := NewManager cfg, tables := tables, visited := [], result := none }
    applied := false }

/-- `Apply` or `SetPortGrants`. -/
def Input.Sets (i : Input H) : Prop := i.call = .apply ∨ ∃ grants, i.call = .setPortGrants grants

/-- The remembered grants are not set again after an `Apply` that failed. -/
def Input.NotRepeated (s : Tracked H) (i : Input H) : Prop :=
  ∀ grants, i.call = .setPortGrants grants → s.system.manager.enabled = true →
    grantsEqual s.system.manager.portGrants grants = true → s.applied = true

/-- The remembered grants are in force if the last `Apply` succeeded. -/
structure Tracked.InForce (cfg : Config) (s : Tracked H) : Prop where
  config : s.system.manager.cfg = cfg
  installed : s.system.manager.enabled = true → s.applied = true →
    ∀ fam, Installed cfg s.system.manager.portGrants fam (s.system.tables fam)

variable {host : Host H} {cfg : Config}

/-- `Apply` leaves its rules in both families, or an error. -/
theorem apply_outcome (host : Host H) (faults : Faults H) (m : Manager) (w : World H) :
    (m.apply host faults w).1.cfg = m.cfg ∧ (m.apply host faults w).1.portGrants = m.portGrants ∧
      ((m.apply host faults w).2.2 = none →
        ∀ fam, Installed m.cfg m.portGrants fam ((m.apply host faults w).2.1.tables fam)) := by
  have hKept : (m.apply host faults w).1.cfg = m.cfg ∧
      (m.apply host faults w).1.portGrants = m.portGrants := by
    unfold Manager.apply
    split
    · exact ⟨rfl, rfl⟩
    · split
      · exact ⟨rfl, rfl⟩
      · split <;> exact ⟨rfl, rfl⟩
  exact ⟨hKept.1, hKept.2, fun hOk fam => ⟨_, ((apply_eq_none hOk).2 fam).2⟩⟩

variable {i : Input H} {m : Manager}

/-- A call that gets as far as `Apply` is an `Apply` with the new grants. -/
theorem handle_of_applies (host : Host H) (w : World H) (h : m.applies i.call = true) : ∃ grants,
      m.handle host w i = Manager.apply host i.faults { m with portGrants := grants } w ∧
        ∀ given, i.call = .setPortGrants given → grants = given := by
  obtain ⟨call, faults⟩ := i
  cases call with
  | apply => exact ⟨m.portGrants, rfl, fun _ hCall => nomatch hCall⟩
  | setPortGrants grants =>
      obtain ⟨hEnabled, hNew⟩ : m.enabled = true ∧ grantsEqual m.portGrants grants = false := by
        simpa [Manager.applies] using h
      refine ⟨grants, ?_, ?_⟩
      · dsimp only [Manager.handle]
        rw [Manager.setPortGrants, hNew, if_neg Bool.false_ne_true]
        exact if_pos hEnabled
      · rintro _ ⟨⟩
        rfl
  | reconcileFirewallGrants store => cases h
  | tick => cases h
  | stop => cases h

/-- A call that does not get there leaves the tables as they are. -/
theorem handle_of_not_applies (host : Host H) (w : World H) (hSets : i.Sets)
    (h : m.applies i.call = false) :
    m.handle host w i = (m, w, none) ∨
      m.enabled = false ∧ ∃ grants, m.handle host w i = ({ m with portGrants := grants }, w, none) := by
  obtain ⟨call, faults⟩ := i
  rcases hSets with hCall | ⟨grants, hCall⟩
  · cases hCall
    cases h
  · cases hCall
    dsimp only [Manager.handle, Manager.setPortGrants]
    split
    · exact Or.inl rfl
    next hNew =>
      have hDisabled : m.enabled = false := by
        simpa [Manager.applies, hNew] using h
      rw [if_neg (by simp [hDisabled])]
      exact Or.inr ⟨hDisabled, grants, rfl⟩

theorem step_of_handle {s : Tracked H} {tables : Tables H}
    (h : s.system.manager.handle host ⟨s.system.tables, []⟩ i = (m, ⟨tables, []⟩, none)) :
    (s.step host i).system = { manager := m, tables := tables, visited := [], result := none } := by
  simp only [Tracked.step, System.step, h]

theorem inForce_step {s : Tracked H} (h : s.InForce cfg) (hSets : i.Sets) :
    (s.step host i).InForce cfg := by
  obtain ⟨hConfig, hInstalled⟩ := h
  cases hApplies : s.system.manager.applies i.call with
  | true =>
      obtain ⟨grants, hHandle, _⟩ := handle_of_applies host ⟨s.system.tables, []⟩ hApplies
      obtain ⟨hCfg, hGrants, hOk⟩ := apply_outcome host i.faults
        { s.system.manager with portGrants := grants } ⟨s.system.tables, []⟩
      rw [← hHandle] at hCfg hGrants hOk
      refine ⟨hCfg.trans hConfig, fun _ hApplied => ?_⟩
      have hNone : (s.system.step host i).result = none := by
        simpa [Tracked.step, hApplies] using hApplied
      have hResult := hOk hNone
      rw [← hGrants, hConfig] at hResult
      exact hResult
  | false =>
      have hApplied : (s.step host i).applied = s.applied := by
        simp [Tracked.step, hApplies]
      rcases handle_of_not_applies host ⟨s.system.tables, []⟩ hSets hApplies with
        hSame | ⟨hDisabled, grants, hSame⟩
      · have hStep := step_of_handle hSame
        refine ⟨by rw [hStep]; exact hConfig, ?_⟩
        rw [hStep, hApplied]
        exact hInstalled
      · have hStep := step_of_handle hSame
        refine ⟨by rw [hStep]; exact hConfig, ?_⟩
        rw [hStep]
        intro hEnabled
        cases hDisabled.symm.trans hEnabled

/-- In every run of `Apply` and `SetPortGrants` in which the remembered grants are not set
again after an `Apply` that failed, grants that are set without an error while the manager
is enabled are in force in both families. -/
theorem grants_in_force (host : Host H) (cfg : Config) (tables : Tables H) (inputs : List (Input H))
    (i : Input H) (grants : List PortGrant)
    (hSteps : Meets (Tracked.step host) (fun s j => j.Sets ∧ j.NotRepeated s)
      (Tracked.fresh cfg tables) (inputs ++ [i]))
    (hCall : i.call = .setPortGrants grants)
    (hEnabled : (run (Tracked.step host) (Tracked.fresh cfg tables)
      inputs).system.manager.enabled = true)
    (hOk : (run (Tracked.step host) (Tracked.fresh cfg tables)
      (inputs ++ [i])).system.result = none) (fam : Family) :
    Installed cfg grants fam ((run (Tracked.step host) (Tracked.fresh cfg tables)
      (inputs ++ [i])).system.tables fam) := by
  obtain ⟨hPrevious, ⟨hSets, hNotRepeated⟩, _⟩ := meets_append.mp hSteps
  have hInit : (Tracked.fresh cfg tables).InForce cfg :=
    ⟨rfl, fun hFresh => absurd hFresh Bool.false_ne_true⟩
  have hInv : (run (Tracked.step host) (Tracked.fresh cfg tables) inputs).InForce cfg :=
    invariant_run (Tracked.InForce cfg) (fun s j h hStep => inForce_step h hStep.1) hInit
      hPrevious
  rw [run_append, run_cons, run_nil] at hOk ⊢
  generalize run (Tracked.step host) (Tracked.fresh cfg tables) inputs = s
    at hInv hNotRepeated hEnabled hOk ⊢
  cases hApplies : s.system.manager.applies i.call with
  | true =>
      obtain ⟨given, hHandle, hGiven⟩ := handle_of_applies host ⟨s.system.tables, []⟩ hApplies
      cases hGiven grants hCall
      obtain ⟨_, _, hResult⟩ := apply_outcome host i.faults
        { s.system.manager with portGrants := grants } ⟨s.system.tables, []⟩
      rw [← hHandle] at hResult
      rw [← hInv.config]
      exact hResult hOk fam
  | false =>
      have hSame : grantsEqual s.system.manager.portGrants grants = true := by
        simpa [Manager.applies, hCall, hEnabled] using hApplies
      have hInstalled := hInv.installed hEnabled (hNotRepeated grants hCall hEnabled hSame) fam
      rw [grantsEqual_iff.mp hSame] at hInstalled
      rcases handle_of_not_applies host ⟨s.system.tables, []⟩ hSets hApplies with
        hHandle | ⟨hDisabled, _⟩
      · rw [step_of_handle hHandle]
        exact hInstalled
      · cases hDisabled.symm.trans hEnabled

end Calls

section Sample

/-- An unused manager over tables without rules. -/
def sampleTracked : Tracked Empty := Tracked.fresh sampleConfig fun _ => openTable

/-- `Apply`, and grants that are set with the faults. -/
def settingInputs (faults : Faults Empty) : List (Input Empty) :=
  [⟨.apply, Faults.none⟩, ⟨.setPortGrants [sampleGrant [22]], faults⟩]

def repeatedInput : Input Empty := ⟨.setPortGrants [sampleGrant [22]], Faults.none⟩

theorem repeated_grants_in_force :
    (run (Tracked.step sampleHost) sampleTracked
        (settingInputs Faults.none ++ [repeatedInput])).system.result = none ∧
      ∀ fam, Installed sampleConfig [sampleGrant [22]] fam
        ((run (Tracked.step sampleHost) sampleTracked
          (settingInputs Faults.none ++ [repeatedInput])).system.tables fam) := by
  have hFirst : (run (Tracked.step sampleHost) sampleTracked
      [⟨.apply, Faults.none⟩]).applied = true := by decide +kernel
  have hSecond : (run (Tracked.step sampleHost) sampleTracked
      (settingInputs Faults.none)).applied = true := by decide +kernel
  have hSteps : Meets (Tracked.step sampleHost) (fun s j => j.Sets ∧ j.NotRepeated s)
      sampleTracked (settingInputs Faults.none ++ [repeatedInput]) :=
    ⟨⟨Or.inl rfl, nofun⟩, ⟨Or.inr ⟨_, rfl⟩, fun _ _ _ _ => hFirst⟩,
      ⟨Or.inr ⟨_, rfl⟩, fun _ _ _ _ => hSecond⟩, trivial⟩
  have hOk : (run (Tracked.step sampleHost) sampleTracked
      (settingInputs Faults.none ++ [repeatedInput])).system.result = none := by decide +kernel
  exact ⟨hOk, grants_in_force sampleHost sampleConfig (fun _ => openTable)
    (settingInputs Faults.none) repeatedInput [sampleGrant [22]] hSteps rfl (by decide +kernel) hOk⟩

/-- The chain cannot be created in the second family. -/
def createFault : Faults Empty where
  onPath := fun _ => true
  denies := fun _ fam cmd => fam = .v6 ∧ cmd = .newChain inputChain

/-- The grants fail once and are set again: no error, and no rules in either family. -/
theorem failed_grants_are_forgotten :
    (run (Tracked.step sampleHost) sampleTracked
        (settingInputs createFault)).system.manager.enabled = true ∧
      (run (Tracked.step sampleHost) sampleTracked
        (settingInputs createFault)).system.result = some "ip6tables create ATREOAGENT-WG-INPUT" ∧
      (run (Tracked.step sampleHost) sampleTracked
        (settingInputs createFault ++ [repeatedInput])).system.result = none ∧
      ∀ fam, ¬ Installed sampleConfig [sampleGrant [22]] fam
        ((run (Tracked.step sampleHost) sampleTracked
          (settingInputs createFault ++ [repeatedInput])).system.tables fam) := by
  have hEmpty : ∀ fam ∈ families, ((run (Tracked.step sampleHost) sampleTracked
      (settingInputs createFault ++ [repeatedInput])).system.tables fam).rules (.user inputChain) =
        [] := by decide +kernel
  refine ⟨by decide +kernel, by decide +kernel, by decide +kernel, ?_⟩
  rintro fam ⟨base, hBuilt⟩
  have hListed : fam ∈ families := by cases fam <;> decide
  have hNil := hEmpty fam hListed
  rw [hBuilt.rules, overlay, if_pos rfl] at hNil
  cases hNil

end Sample

end Firewall
