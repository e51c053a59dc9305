import AtreoAgent.Tunnel.FailClosed
import AtreoAgent.Tunnel.Interleaving

/-! The liveness watch against what the agent has heard. The watch keeps four values: when it
was first used, whether a state counts as applied, the last sign of life and whether it has
tripped. They are related to the history of the run, and the decisions of the watch follow. -/
namespace Tunnel

open Codec Json Atreolink WireGuard Machine

namespace Agent

/-- The input applies a device state. -/
def applies (env : Env) (agent : Agent) (input : Input) : Bool :=
  (agent.appliedState env input).isSome

/-- The times of the device states a run applies. -/
def appliedAt (env : Env) (agent : Agent) (inputs : List Input) : List Time :=
  (occurrences (Agent.step env) (applies env) agent inputs).map (·.now)

end Agent

section Steps

variable {env : Env} {agent : Agent} {input : Input}

end Steps

/-- What the watch decides. -/
inductive Decision (agent : Agent) (now : Time) : LivenessState × Bool → Prop where
  | closed (hClosed : (agent.liveness now).failClosed = true) :
      Decision agent now (agent.liveness now, false)
  /-- The state on disk is recent and counts as applied. -/
  | adopted (t : Time) (hOpen : (agent.liveness now).failClosed = false)
      (hOnce : (agent.liveness now).appliedOnce = false)
      (hDisk : agent.store.lastAppliedAt = some t) (hRecent : now - t ≤ staleBound) :
      Decision agent now ({ agent.liveness now with
        appliedOnce := true
        lastPositiveLiveness := (agent.liveness now).lastPositiveLiveness.or (some t) }, false)
  | cold (trip : Bool) (hOpen : (agent.liveness now).failClosed = false)
      (hOnce : (agent.liveness now).appliedOnce = false)
      (hTrip : trip = decide (coldStartTimeout < now - (agent.liveness now).bootAt)) :
      Decision agent now ({ agent.liveness now with failClosed := trip }, trip)
  | warm (trip : Bool) (hOpen : (agent.liveness now).failClosed = false)
      (hOnce : (agent.liveness now).appliedOnce = true)
      (hTrip : ∀ ref, (agent.liveness now).lastPositiveLiveness = some ref →
        trip = decide (staleBound < now - ref)) :
      Decision agent now ({ agent.liveness now with failClosed := trip }, trip)

theorem decideLiveness_cases (agent : Agent) (now : Time) :
    Decision agent now (agent.decideLiveness now) := by
  unfold Agent.decideLiveness
  dsimp only
  split
  next hClosed => exact .closed hClosed
  next hOpen =>
    have hOpen : (agent.liveness now).failClosed = false := by simpa using hOpen
    split
    next hOnce =>
      have hOnce : (agent.liveness now).appliedOnce = false := by simpa using hOnce
      split
      next hRecent =>
        unfold Agent.recentlyApplied at hRecent
        split at hRecent
        next t hDisk =>
          rw [hDisk]
          exact .adopted t hOpen hOnce hDisk (of_decide_eq_true hRecent)
        · cases hRecent
      · exact .cold _ hOpen hOnce rfl
    next hOnce =>
      refine .warm _ hOpen (by simpa using hOnce) fun ref hRef => ?_
      rw [hRef, Option.some_or]

/-- The liveness state beside the history of the run: the time on disk, and the times at which
the state was used, the server was heard and device states were applied. -/
structure LivenessRecord (disk : Option Time) (consulted heard applied : List Time)
    (agent : Agent) : Prop where
  store : agent.store.lastAppliedAt = applied.getLast?.or disk
  boot : agent.live.map (·.bootAt) = consulted.head?
  subset : heard = [] → applied = []
  once : applied ≠ [] → ∃ l, agent.live = some l ∧ l.appliedOnce = true
  /-- Before the server is heard the time on disk may stand in. -/
  last : agent.live.bind (·.lastPositiveLiveness) = heard.getLast? ∨
    heard = [] ∧ agent.live.bind (·.lastPositiveLiveness) = disk
  reference : ∀ l, agent.live = some l → l.appliedOnce = true → l.lastPositiveLiveness.isSome = true

namespace LivenessRecord

variable {disk : Option Time} {consulted heard applied : List Time} {agent after : Agent} {now : Time}

/-- The state is set up at its first use. -/
theorem boot_liveness (h : LivenessRecord disk consulted heard applied agent) (now : Time) :
    some (agent.liveness now).bootAt = (consulted ++ [now]).head? := by
  have hBoot := h.boot
  rw [List.head?_append, ← hBoot, Agent.liveness]
  cases agent.live <;> rfl

theorem mark (h : LivenessRecord disk consulted heard applied agent) (isApply : Bool)
    (hLive : after.live = (agent.markLiveness now isApply).live)
    (hStore : after.store.lastAppliedAt =
      if isApply then some now else agent.store.lastAppliedAt) :
    LivenessRecord disk (consulted ++ [now]) (heard ++ [now])
      (if isApply then applied ++ [now] else applied) after where
  store := by
    rw [hStore]
    cases isApply with
    | true => simp
    | false => exact h.store
  boot := by
    rw [hLive, ← h.boot_liveness now]
    rfl
  subset hNone := by simp at hNone
  once hSome := by
    rw [hLive]
    refine ⟨_, rfl, ?_⟩
    cases isApply with
    | true => rfl
    | false =>
        obtain ⟨l, hl, hOnce⟩ := h.once hSome
        simp only [Agent.liveness, hl, Option.getD_some, hOnce, Bool.or_true]
  last := Or.inl (by rw [hLive]; simp [Agent.markLiveness])
  reference l hl _ := by
    rw [hLive] at hl
    cases hl
    rfl

theorem liveness_last (agent : Agent) (now : Time) :
    (agent.liveness now).lastPositiveLiveness = agent.live.bind (·.lastPositiveLiveness) := by
  rw [Agent.liveness]
  cases agent.live <;> rfl

theorem live_of_appliedOnce (h : (agent.liveness now).appliedOnce = true) :
    agent.live = some (agent.liveness now) := by
  unfold Agent.liveness at h ⊢
  cases hLive : agent.live with
  | none =>
      rw [hLive] at h
      cases h
  | some l => rfl

/-- Until a state counts as applied none has been, and the time of the last apply is that on
disk. -/
theorem disk_of_not_once (h : LivenessRecord disk consulted heard applied agent)
    (hOnce : (agent.liveness now).appliedOnce = false) :
    applied = [] ∧ agent.store.lastAppliedAt = disk := by
  have hNone : applied = [] := by
    by_contra hSome
    obtain ⟨l, hl, hTrue⟩ := h.once hSome
    rw [Agent.liveness, hl, Option.getD_some, hTrue] at hOnce
    cases hOnce
  have hStore := h.store
  rw [hNone] at hStore
  exact ⟨hNone, hStore⟩

/-- A decision leaves the boot time. -/
theorem decideLiveness_bootAt (agent : Agent) (now : Time) :
    (agent.decideLiveness now).1.bootAt = (agent.liveness now).bootAt := by
  have hCase := decideLiveness_cases agent now
  generalize agent.decideLiveness now = out at hCase ⊢
  cases hCase <;> rfl

/-- The state after a decision, from what it says of the last sign of life and of the
apply. -/
theorem of_decision (h : LivenessRecord disk consulted heard applied agent) {l : LivenessState}
    (hLive : after.live = some l)
    (hStore : after.store.lastAppliedAt = agent.store.lastAppliedAt)
    (hBoot : l.bootAt = (agent.liveness now).bootAt)
    (hOnce : (agent.liveness now).appliedOnce = true → l.appliedOnce = true)
    (hLast : l.lastPositiveLiveness = heard.getLast? ∨ heard = [] ∧ l.lastPositiveLiveness = disk)
    (hReference : l.appliedOnce = true → l.lastPositiveLiveness.isSome = true) :
    LivenessRecord disk (consulted ++ [now]) heard applied after where
  store := hStore.trans h.store
  boot := by
    rw [hLive, Option.map_some, hBoot]
    exact h.boot_liveness now
  subset := h.subset
  once hSome := by
    obtain ⟨l', hl', hTrue⟩ := h.once hSome
    refine ⟨l, hLive, hOnce ?_⟩
    rw [Agent.liveness, hl', Option.getD_some, hTrue]
  last := by
    rw [hLive, Option.bind_some]
    exact hLast
  reference l' hl' := by
    cases hLive.symm.trans hl'
    exact hReference

theorem tick (h : LivenessRecord disk consulted heard applied agent)
    (hLive : after.live = some (agent.decideLiveness now).1)
    (hStore : after.store.lastAppliedAt = agent.store.lastAppliedAt) :
    LivenessRecord disk (consulted ++ [now]) heard applied after := by
  have hBoot := decideLiveness_bootAt agent now
  have hLast := h.last
  rw [← liveness_last agent now] at hLast
  have hReference : (agent.liveness now).appliedOnce = true →
      (agent.liveness now).lastPositiveLiveness.isSome = true := fun hOnce =>
    h.reference _ (live_of_appliedOnce hOnce) hOnce
  have hCase := decideLiveness_cases agent now
  generalize agent.decideLiveness now = out at hCase hLive hBoot
  cases hCase with
  | closed hClosed => exact h.of_decision hLive hStore hBoot id hLast hReference
  | adopted t hOpen hOnce hDisk hRecent =>
      refine h.of_decision hLive hStore hBoot (fun _ => rfl) ?_ (fun _ => by simp)
      obtain ⟨_, hSame⟩ := h.disk_of_not_once hOnce
      dsimp only
      rcases hLast with hHeard | ⟨hNone, hOnDisk⟩
      · cases hHeard' : heard.getLast? with
        | some u =>
            rw [hHeard, hHeard', Option.some_or]
            exact Or.inl rfl
        | none =>
            rw [hHeard, hHeard', Option.none_or, ← hSame, hDisk]
            exact Or.inr ⟨List.getLast?_eq_none_iff.mp hHeard', rfl⟩
      · rw [hOnDisk, ← hSame, hDisk]
        exact Or.inr ⟨hNone, rfl⟩
  | cold trip hOpen hOnce hTrip => exact h.of_decision hLive hStore hBoot id hLast hReference
  | warm trip hOpen hOnce hTrip => exact h.of_decision hLive hStore hBoot id hLast hReference

end LivenessRecord

section Evidence

variable (env : Env) {agent : Agent} {inputs : List Input} {tick : Input}
  (hStart : agent.live = none)
  (hOrder : ((inputs ++ [tick]).map (·.now)).Pairwise (· ≤ ·))

end Evidence

end Tunnel
