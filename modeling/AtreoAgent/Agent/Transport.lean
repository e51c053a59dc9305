import AtreoAgent.Acl.Access
import AtreoAgent.Machine.Run
import Mathlib.Tactic.IntervalCases

/-! Warnings about a lost direct path (`reportTransport`). The agent reads every half minute
whether it needs the relay. The second relay read in a row is reported and the holders of
direct configurations are warned, unless a marker says that they have been. A direct read is
reported at once and clears the marker. A report that is not sent is tried again. -/
namespace Transport

open Atreolink Machine

inductive TransportState where
  | unknown
  | direct
  | relay
  deriving DecidableEq, Repr

def transportReportDecision (cur last : TransportState) (relayStreak : Nat) : TransportState :=
  if cur = .direct ∧ last ≠ .direct then .direct
  else if cur = .relay ∧ last ≠ .relay ∧ 2 ≤ relayStreak then .relay
  else .unknown

def hasDirectConfig (clients : List ClientRecord) : Bool :=
  clients.any fun c => c.platform = "other" && c.endpointType = "direct"

/-- One pass of the loop: what it reads, and what comes of the calls it makes. -/
structure Tick where
  relayNeeded : Bool
  members : List MemberACLEntry
  /-- Whether there is a notification server. -/
  notifyServer : Bool := true
  sendToMember : MemberACLEntry → Bool := fun _ => true
  createMarker : Bool := true
  removeMarker : Bool := true
  /-- Whether the report is sent. -/
  sent : Bool

/-- The last report that was sent, the relay reads in a row, and the marker. -/
structure Watcher where
  last : TransportState := .unknown
  relayStreak : Nat := 0
  marker : Bool := false
  deriving DecidableEq, Repr

def Tick.cur (t : Tick) : TransportState := if t.relayNeeded then .relay else .direct

/-- The active members with a direct configuration. -/
def Tick.holders (t : Tick) : List MemberACLEntry :=
  t.members.filter fun m => Acl.active m && hasDirectConfig m.clients

namespace Watcher

def streak (w : Watcher) (t : Tick) : Nat := if t.cur = .relay then w.relayStreak + 1 else 0

def report (w : Watcher) (t : Tick) : TransportState :=
  transportReportDecision t.cur w.last (w.streak t)

/-- The members that `warnDirectConfigHolders` reaches, if it gets past the marker. -/
def warned (w : Watcher) (t : Tick) : Option (List MemberACLEntry) :=
  if w.report t = .relay ∧ t.notifyServer ∧ !w.marker then
    some (t.holders.filter t.sendToMember)
  else none

def step (w : Watcher) (t : Tick) : Watcher where
  last := if w.report t ≠ .unknown ∧ t.sent then w.report t else w.last
  relayStreak := w.streak t
  marker :=
    match w.report t with
    | .relay => w.marker || (w.warned t).isSome && t.createMarker
    | .direct => w.marker && !t.removeMarker
    | .unknown => w.marker

end Watcher

/-- Notifications are sent and the marker is written and removed. -/
structure Tick.Succeeds (t : Tick) : Prop where
  notifyServer : t.notifyServer = true
  sendToMember : ∀ m, t.sendToMember m = true
  createMarker : t.createMarker = true
  removeMarker : t.removeMarker = true

/-- The holders are warned at a position of the run. -/
def WarnedAt (ticks : List Tick) (n : Nat) : Prop :=
  At Watcher.step {} ticks n fun w t => w.warned t = some t.holders

/-- The relay reads from `a` up to `b` are a longest run. -/
structure RelayRun (ticks : List Tick) (a b : Nat) : Prop where
  lt : a < b
  relay : ∀ n, a ≤ n → n < b → ∃ t, ticks[n]? = some t ∧ t.relayNeeded = true
  left : ∀ n, n + 1 = a → ∃ t, ticks[n]? = some t ∧ t.relayNeeded = false
  right : ∀ t, ticks[b]? = some t → t.relayNeeded = false

/-- What has to have been sent. When a direct read finds the marker, a relay report has gone
out since the last direct one. When the second relay read comes, a direct report has gone out
since the last relay one. -/
def Watcher.Delivered (w : Watcher) (t : Tick) : Prop :=
  (t.relayNeeded = false → w.marker = true → w.last ≠ .direct) ∧
    (t.relayNeeded = true → w.relayStreak = 1 → w.last ≠ .relay)

instance (w : Watcher) (t : Tick) : Decidable (w.Delivered t) :=
  inferInstanceAs (Decidable (_ ∧ _))

namespace Watcher

variable {w : Watcher} {t : Tick}

theorem streak_relay (h : t.relayNeeded = true) : w.streak t = w.relayStreak + 1 := by
  simp [streak, Tick.cur, h]

theorem streak_direct (h : t.relayNeeded = false) : w.streak t = 0 := by
  simp [streak, Tick.cur, h]

/-- A direct read leaves no marker. -/
theorem marker_direct (hTick : t.Succeeds) (hDelivered : w.Delivered t)
    (h : t.relayNeeded = false) : (w.step t).marker = false := by
  have hCur : t.cur = .direct := by simp [Tick.cur, h]
  by_cases hLast : w.last = .direct
  · have hMarker : w.marker = false := by
      rw [← Bool.not_eq_true]
      intro hSet
      exact hDelivered.1 h hSet hLast
    simp [step, report, transportReportDecision, hCur, hLast, hMarker]
  · simp [step, report, transportReportDecision, hCur, hLast, hTick.removeMarker]

/-- The first relay read of a run does nothing. -/
theorem first_relay (h : t.relayNeeded = true) (hStreak : w.relayStreak = 0) :
    w.warned t = none ∧ (w.step t).marker = w.marker := by
  have hReport : w.report t = .unknown := by
    simp [report, transportReportDecision, streak_relay h, hStreak, Tick.cur, h]
  simp [warned, step, hReport]

/-- The second one warns. -/
theorem second_relay (hTick : t.Succeeds) (hDelivered : w.Delivered t) (h : t.relayNeeded = true)
    (hStreak : w.relayStreak = 1) (hMarker : w.marker = false) :
    w.warned t = some t.holders ∧ (w.step t).marker = true := by
  have hReport : w.report t = .relay := by
    simp [report, transportReportDecision, streak_relay h, hStreak, Tick.cur, h,
      hDelivered.2 h hStreak]
  have hAll : t.holders.filter t.sendToMember = t.holders :=
    List.filter_eq_self.mpr fun m _ => hTick.sendToMember m
  have hWarned : w.warned t = some t.holders := by
    simp [warned, hReport, hTick.notifyServer, hMarker, hAll]
  simp [step, hReport, hWarned, hTick.createMarker]

/-- A relay read that finds the marker warns nobody and leaves it. -/
theorem marked_relay (h : t.relayNeeded = true) (hMarker : w.marker = true) :
    w.warned t = none ∧ (w.step t).marker = true := by
  have hNotDirect : w.report t ≠ .direct := by
    simp [report, transportReportDecision, Tick.cur, h]
    split <;> simp
  constructor
  · simp [warned, hMarker]
  · rw [step]
    dsimp only
    split
    · simp [hMarker]
    next hDirect => exact absurd hDirect hNotDirect
    · exact hMarker

end Watcher

section Runs

variable {ticks : List Tick} {a b : Nat}

/-- A relay run starts with no relay read counted, and without a marker. -/
theorem RelayRun.start (hRun : RelayRun ticks a b) (hTicks : ∀ t ∈ ticks, t.Succeeds)
    (hDelivered : Meets Watcher.step Watcher.Delivered {} ticks) :
    (run Watcher.step {} (ticks.take a)).relayStreak = 0 ∧
      (run Watcher.step {} (ticks.take a)).marker = false := by
  cases a with
  | zero => exact ⟨rfl, rfl⟩
  | succ n =>
      obtain ⟨t, hTick, hDirect⟩ := hRun.left n rfl
      have hSucceeds := hTicks t (List.mem_of_getElem? hTick)
      rw [run_take_succ hTick]
      exact ⟨Watcher.streak_direct hDirect,
        Watcher.marker_direct hSucceeds (hDelivered.getElem hTick) hDirect⟩

/-- After its first read a relay run has counted one, and there is still no marker. -/
theorem RelayRun.second (hRun : RelayRun ticks a b) (hTicks : ∀ t ∈ ticks, t.Succeeds)
    (hDelivered : Meets Watcher.step Watcher.Delivered {} ticks) :
    (run Watcher.step {} (ticks.take (a + 1))).relayStreak = 1 ∧
      (run Watcher.step {} (ticks.take (a + 1))).marker = false := by
  obtain ⟨hStreak, hMarker⟩ := hRun.start hTicks hDelivered
  obtain ⟨t, hTick, hRelay⟩ := hRun.relay a (Nat.le_refl a) hRun.lt
  rw [run_take_succ hTick]
  refine ⟨?_, (Watcher.first_relay hRelay hStreak).2.trans hMarker⟩
  rw [Watcher.step, Watcher.streak_relay hRelay, hStreak]

/-- From its third read on a relay run finds the marker. -/
theorem RelayRun.marked (hRun : RelayRun ticks a b) (hTicks : ∀ t ∈ ticks, t.Succeeds)
    (hDelivered : Meets Watcher.step Watcher.Delivered {} ticks) {n : Nat} (hLow : a + 2 ≤ n)
    (hHigh : n ≤ b) : (run Watcher.step {} (ticks.take n)).marker = true := by
  induction n, hLow using Nat.le_induction with
  | base =>
      obtain ⟨hStreak, hMarker⟩ := hRun.second hTicks hDelivered
      obtain ⟨t, hTick, hRelay⟩ := hRun.relay (a + 1) (by omega) (by omega)
      have hSucceeds := hTicks t (List.mem_of_getElem? hTick)
      rw [run_take_succ hTick]
      exact (Watcher.second_relay hSucceeds (hDelivered.getElem hTick) hRelay hStreak hMarker).2
  | succ n hLow ih =>
      obtain ⟨t, hTick, hRelay⟩ := hRun.relay n (by omega) (by omega)
      rw [run_take_succ hTick]
      exact (Watcher.marked_relay hRelay (ih (by omega))).2

/-- In a run where the reports went out as they had to, the holders are warned at the second
read of each relay run and at no other. -/
theorem holders_warned_once (hTicks : ∀ t ∈ ticks, t.Succeeds)
    (hDelivered : Meets Watcher.step Watcher.Delivered {} ticks) (hRun : RelayRun ticks a b) :
    (b = a + 1 → ¬ At Watcher.step {} ticks a fun w t => w.warned t ≠ none) ∧
      (a + 2 ≤ b → WarnedAt ticks (a + 1) ∧
        ∀ n, a ≤ n → n < b → At Watcher.step {} ticks n (fun w t => w.warned t ≠ none) →
          n = a + 1) := by
  have hFirst : ¬ At Watcher.step {} ticks a fun w t => w.warned t ≠ none := by
    rintro ⟨t, hTick, hWarned⟩
    obtain ⟨t', hTick', hRelay⟩ := hRun.relay a (Nat.le_refl a) hRun.lt
    obtain rfl : t = t' := Option.some.inj (hTick.symm.trans hTick')
    exact hWarned (Watcher.first_relay hRelay (hRun.start hTicks hDelivered).1).1
  refine ⟨fun _ => hFirst, fun hLong => ⟨?_, ?_⟩⟩
  · obtain ⟨hStreak, hMarker⟩ := hRun.second hTicks hDelivered
    obtain ⟨t, hTick, hRelay⟩ := hRun.relay (a + 1) (by omega) (by omega)
    have hSucceeds := hTicks t (List.mem_of_getElem? hTick)
    exact ⟨t, hTick,
      (Watcher.second_relay hSucceeds (hDelivered.getElem hTick) hRelay hStreak hMarker).1⟩
  · intro n hLow hHigh hAt
    by_contra hOther
    rcases Nat.eq_or_lt_of_le hLow with rfl | hLater
    · exact hFirst hAt
    · obtain ⟨t, hTick, hWarned⟩ := hAt
      obtain ⟨t', hTick', hRelay⟩ := hRun.relay n hLow hHigh
      obtain rfl : t = t' := Option.some.inj (hTick.symm.trans hTick')
      have hMarker := hRun.marked hTicks hDelivered (n := n) (by omega) (by omega)
      exact hWarned (Watcher.marked_relay hRelay hMarker).1

end Runs

/-- A member with a direct configuration. -/
def holder : MemberACLEntry :=
  { memberID := "m", userID := "", memberName := "", email := "", role := "member"
    identityKey := "", joinAttestation := none, admittance := none
    clients := [{ wgPublicKey := "k", platform := "other", endpointType := "direct" }]
    allowedApps := [], status := "active" }

/-- Reads with the outcomes of their reports, and one member to be warned. -/
def ticksOf (reads : List (Bool × Bool)) : List Tick :=
  reads.map fun r => { relayNeeded := r.1, members := [holder], sent := r.2 }

theorem holders_ticksOf {reads : List (Bool × Bool)} : ∀ t ∈ ticksOf reads, t.holders = [holder] := by
  intro t ht
  obtain ⟨r, _, rfl⟩ := List.mem_map.mp ht
  rfl

theorem succeeds_ticksOf {reads : List (Bool × Bool)} : ∀ t ∈ ticksOf reads, t.Succeeds := by
  intro t ht
  obtain ⟨r, _, rfl⟩ := List.mem_map.mp ht
  exact ⟨rfl, fun _ => rfl, rfl, rfl⟩

/-- Two relay runs with a direct read before each; the relay reports of the first get lost. -/
def relayReportsLost : List Tick :=
  ticksOf [(false, true), (true, true), (true, false), (false, true), (true, true), (true, true)]

/-- Two relay runs with a direct read in between, whose report gets lost. -/
def directReportLost : List Tick :=
  ticksOf [(true, true), (true, true), (false, false), (true, true), (true, true)]

/-- In both cases the member is not warned in the second relay run. -/
theorem second_relay_run_not_warned :
    (∀ t ∈ relayReportsLost ++ directReportLost, t.holders = [holder]) ∧
      (RelayRun relayReportsLost 4 6 ∧ ∀ n, 4 ≤ n → n < 6 →
        ¬ At Watcher.step {} relayReportsLost n fun w t => w.warned t ≠ none) ∧
      (RelayRun directReportLost 3 5 ∧ ∀ n, 3 ≤ n → n < 5 →
        ¬ At Watcher.step {} directReportLost n fun w t => w.warned t ≠ none) := by
  refine ⟨?_, ⟨⟨by decide, ?_, ?_, ?_⟩, ?_⟩, ⟨by decide, ?_, ?_, ?_⟩, ?_⟩
  · intro t ht
    exact (List.mem_append.mp ht).elim (holders_ticksOf t) (holders_ticksOf t)
  · intro n hLow hHigh
    interval_cases n <;> exact ⟨_, rfl, rfl⟩
  · intro n hn
    obtain rfl : n = 3 := by omega
    exact ⟨_, rfl, rfl⟩
  · intro t ht
    cases ht
  · rintro n hLow hHigh ⟨t, ht, hWarned⟩
    interval_cases n <;> cases ht <;> exact hWarned (by decide)
  · intro n hLow hHigh
    interval_cases n <;> exact ⟨_, rfl, rfl⟩
  · intro n hn
    obtain rfl : n = 2 := by omega
    exact ⟨_, rfl, rfl⟩
  · intro t ht
    cases ht
  · rintro n hLow hHigh ⟨t, ht, hWarned⟩
    interval_cases n <;> cases ht <;> exact hWarned (by decide)

/-- Two relay runs whose reports go out, the one of the first at its third read, and a run of
one read between them. -/
def reportsSent : List Tick :=
  ticksOf [(false, true), (true, true), (true, false), (true, true), (false, false), (true, true),
    (false, true), (true, true), (true, false)]

/-- The member is warned once of the second of them. -/
theorem reportsSent_warned_once :
    (∀ t ∈ reportsSent, t.holders = [holder]) ∧ RelayRun reportsSent 7 9 ∧ WarnedAt reportsSent 8 ∧
      ∀ n, 7 ≤ n → n < 9 → At Watcher.step {} reportsSent n (fun w t => w.warned t ≠ none) →
        n = 8 := by
  have hRun : RelayRun reportsSent 7 9 := by
    refine ⟨by decide, ?_, ?_, ?_⟩
    · intro n hLow hHigh
      interval_cases n <;> exact ⟨_, rfl, rfl⟩
    · intro n hn
      obtain rfl : n = 6 := by omega
      exact ⟨_, rfl, rfl⟩
    · intro t ht
      cases ht
  have hDelivered : Meets Watcher.step Watcher.Delivered {} reportsSent :=
    ⟨by decide, by decide, by decide, by decide, by decide, by decide, by decide, by decide,
      by decide, trivial⟩
  exact ⟨holders_ticksOf, hRun, (holders_warned_once succeeds_ticksOf hDelivered hRun).2 (by decide)⟩

end Transport
