import AtreoAgent.Certs.Manager
import AtreoAgent.Machine.Run

/-! What the record of a suffix shows of its renewals. The record follows the result of
`EnsureCert`, which is nil also after a failed issuance if the old files still load. -/
namespace Certs

open Codec Atreolink Machine

/-- What is kept for one suffix: its record, and the calls made for it. -/
structure Ledger where
  state : RenewalState
  calls : List Call

namespace Ledger

/-- The entry for a renewal that succeeded. -/
def succeeded (now : Time) (l : Ledger) : Ledger :=
  { l with state := { l.state with
      consecutiveFailures := 0, lastAttempt := some now, lastSuccess := some now } }

/-- The entry for a renewal that failed, with a notifier set. -/
def failed (suffix : String) (now : Time) (l : Ledger) : Ledger :=
  let failures := l.state.consecutiveFailures + 1
  let st := { l.state with consecutiveFailures := failures, lastAttempt := some now }
  if renewalAlertThreshold ≤ failures ∧ cooledDown now st.lastNotification then
    ⟨{ st with lastNotification := some now }, l.calls ++ [⟨suffix, failures, now⟩]⟩
  else ⟨st, l.calls⟩

/-- The entry for an attempt, if one was made. -/
def enter (suffix : String) (now : Time) (l : Ledger) : Option Attempt → Ledger
  | none => l
  | some attempt => if attempt.ok then l.succeeded now else l.failed suffix now

end Ledger

/-- The attempt for a suffix among those of a tick. -/
def attemptFor (suffix : String) (attempts : List (String × Attempt)) : Option Attempt :=
  (attempts.find? (·.1 = suffix)).map (·.2)

namespace Manager

def ledger (m : Manager) (suffix : String) : Ledger :=
  ⟨m.record suffix, m.calls.filter (·.suffix = suffix)⟩

section Ledger

variable {letters : Letters} {tick : Tick} {now : Time} {m : Manager} {s t : String}

theorem ledger_recordRenewalSuccess :
    (m.recordRenewalSuccess now s).ledger t =
      if t = s then (m.ledger s).succeeded now else m.ledger t := by
  by_cases h : t = s
  · subst h
    simp [ledger, recordRenewalSuccess, record, Ledger.succeeded]
  · simp [ledger, recordRenewalSuccess, record, h]

theorem ledger_recordRenewalFailure (hNotifier : m.notifier = true) :
    (m.recordRenewalFailure now s).ledger t =
      if t = s then (m.ledger s).failed s now else m.ledger t := by
  by_cases hCall : renewalAlertThreshold ≤ (m.record s).consecutiveFailures + 1 ∧
      cooledDown now (m.record s).lastNotification
  · have hRecord : m.recordRenewalFailure now s = { m with
        renewalState := m.renewalState.insert s { m.record s with
          consecutiveFailures := (m.record s).consecutiveFailures + 1, lastAttempt := some now
          lastNotification := some now }
        calls := m.calls ++ [⟨s, (m.record s).consecutiveFailures + 1, now⟩] } :=
      if_pos ⟨hCall.1, hCall.2, hNotifier⟩
    have hLedger : (m.ledger s).failed s now = ⟨{ m.record s with
          consecutiveFailures := (m.record s).consecutiveFailures + 1, lastAttempt := some now
          lastNotification := some now },
        (m.ledger s).calls ++ [⟨s, (m.record s).consecutiveFailures + 1, now⟩]⟩ :=
      if_pos hCall
    rw [hRecord, hLedger]
    by_cases h : t = s
    · subst h
      simp [ledger, record]
    · simp [ledger, record, h, Ne.symm h]
  · have hRecord : m.recordRenewalFailure now s = { m with
        renewalState := m.renewalState.insert s { m.record s with
          consecutiveFailures := (m.record s).consecutiveFailures + 1
          lastAttempt := some now } } :=
      if_neg fun h => hCall ⟨h.1, h.2.1⟩
    have hLedger : (m.ledger s).failed s now = ⟨{ m.record s with
          consecutiveFailures := (m.record s).consecutiveFailures + 1, lastAttempt := some now },
        (m.ledger s).calls⟩ :=
      if_neg hCall
    rw [hRecord, hLedger]
    by_cases h : t = s
    · subst h
      simp [ledger, record]
    · simp [ledger, record, h]

theorem pathsFor_eq {lower : Char → Char} {mkdir : String → Bool} {host dir : String}
    (h : Registry.pathsFor lower mkdir host = some dir) : dir = normaliseHost lower host := by
  unfold Registry.pathsFor at h
  dsimp only at h
  split_ifs at h
  exact (Option.some.inj h).symm

theorem loadSuffix_eq {loaded : Manager} {host : String} (h : m.loadSuffix letters host = some loaded) :
    ∃ r, loaded = { m with registry := r } ∧
      ∀ z, z ≠ normaliseHost letters.lower host → z ∈ r.entries → z ∈ m.registry.entries := by
  obtain ⟨r, hr, rfl⟩ := Option.map_eq_some_iff.mp h
  refine ⟨r, rfl, fun z hOther hz => ?_⟩
  unfold Registry.loadSuffix at hr
  dsimp only at hr
  split at hr
  · cases hr
  · obtain ⟨leaf, _, rfl⟩ := Option.map_eq_some_iff.mp hr
    exact (AList.mem_insert _).mp hz |>.resolve_left hOther

/-- `EnsureCert` touches the registry and the files only, and there nothing but the suffix it is
for. It normalises the name, and `PathsFor` and `LoadSuffix` do so again. -/
theorem ensureCert_eq : ∃ r d, (m.ensureCert letters tick s).1 = { m with registry := r, disk := d } ∧
    ∀ z, z ≠ normaliseHost letters.lower (normaliseHost letters.lower s) →
      d z = m.disk z ∧ (z ∈ r.entries → z ∈ m.registry.entries) := by
  unfold ensureCert
  dsimp only
  split
  · exact ⟨m.registry, m.disk, rfl, fun _ _ => ⟨rfl, id⟩⟩
  · split
    · exact ⟨m.registry, m.disk, rfl, fun _ _ => ⟨rfl, id⟩⟩
    next dir hDir =>
      have hApart : ∀ z, z ≠ normaliseHost letters.lower (normaliseHost letters.lower s) → z ≠ dir :=
        fun z hOther hHere => hOther (hHere.trans (pathsFor_eq hDir))
      split
      next loaded hValid =>
        split at hValid
        · obtain ⟨r, rfl, hEntries⟩ := loadSuffix_eq hValid
          exact ⟨r, m.disk, rfl, fun z hOther => ⟨rfl, hEntries z hOther⟩⟩
        · cases hValid
      · split
        next loaded hFallback =>
          obtain ⟨r, rfl, hEntries⟩ := loadSuffix_eq hFallback
          exact ⟨r, _, rfl, fun z hOther => ⟨if_neg (hApart z hOther), hEntries z hOther⟩⟩
        · exact ⟨m.registry, _, rfl, fun z hOther => ⟨if_neg (hApart z hOther), id⟩⟩

theorem recordRenewalFailure_eq : ∃ st calls,
    m.recordRenewalFailure now s = { m with renewalState := st, calls := calls } := by
  unfold recordRenewalFailure
  dsimp only
  split
  · exact ⟨_, _, rfl⟩
  · exact ⟨_, m.calls, rfl⟩

/-- What a renewal may change beside the record of its suffix. -/
theorem renewOne_eq : ∃ r d st calls, (m.renewOne letters tick s).1 =
      { m with registry := r, disk := d, renewalState := st, calls := calls } ∧
    ∀ z, z ≠ normaliseHost letters.lower (normaliseHost letters.lower s) →
      d z = m.disk z ∧ (z ∈ r.entries → z ∈ m.registry.entries) := by
  unfold renewOne
  split
  · exact ⟨_, _, _, _, rfl, fun _ _ => ⟨rfl, id⟩⟩
  · split
    · exact ⟨_, _, _, _, rfl, fun _ _ => ⟨rfl, id⟩⟩
    · obtain ⟨r, d, hEnsure, hOthers⟩ := @ensureCert_eq letters tick m s
      dsimp only
      rw [hEnsure]
      split
      · exact ⟨r, d, _, _, rfl, hOthers⟩
      · obtain ⟨st, calls, hFailure⟩ := @recordRenewalFailure_eq tick.now
          { m with registry := r, disk := d } s
        exact ⟨r, d, st, calls, hFailure, hOthers⟩

theorem notifier_renewOne : (m.renewOne letters tick s).1.notifier = m.notifier := by
  obtain ⟨r, d, st, calls, hRenew, _⟩ := @renewOne_eq letters tick m s
  rw [hRenew]

/-- One suffix of a tick enters its own attempt, and nothing for the others. -/
theorem ledger_renewOne (hNotifier : m.notifier = true) :
    (m.renewOne letters tick s).1.ledger t =
      if t = s then (m.ledger s).enter s tick.now (m.renewOne letters tick s).2
      else m.ledger t := by
  have hSame : m.ledger t = if t = s then m.ledger s else m.ledger t := by
    split
    next h => rw [h]
    · rfl
  unfold renewOne
  split
  · exact hSame
  · split
    · exact hSame
    · obtain ⟨r, d, hEnsure, _⟩ := @ensureCert_eq letters tick m s
      dsimp only [Ledger.enter]
      rw [hEnsure]
      split
      · exact ledger_recordRenewalSuccess
      · exact ledger_recordRenewalFailure hNotifier

variable {ss : List String}

theorem renewEach_cons :
    m.renewEach letters tick (s :: ss) =
      (((m.renewOne letters tick s).1.renewEach letters tick ss).1,
        ((m.renewOne letters tick s).2.map fun a => (s, a)).toList ++
          ((m.renewOne letters tick s).1.renewEach letters tick ss).2) := by
  rw [renewEach]

theorem mem_of_mem_renewEach {a : Attempt} (h : (t, a) ∈ (m.renewEach letters tick ss).2) :
    t ∈ ss := by
  induction ss generalizing m with
  | nil => cases h
  | cons s ss ih =>
      rw [renewEach_cons] at h
      rcases List.mem_append.mp h with hHere | hLater
      · obtain ⟨a', _, hEq⟩ := Option.map_eq_some_iff.mp (Option.mem_toList.mp hHere)
        rw [← (Prod.mk.inj hEq).1]
        exact List.mem_cons_self
      · exact List.mem_cons_of_mem _ (ih hLater)

theorem attemptFor_renewEach_eq_none (h : t ∉ ss) :
    attemptFor t (m.renewEach letters tick ss).2 = none := by
  rw [attemptFor, Option.map_eq_none_iff, List.find?_eq_none]
  rintro ⟨s, a⟩ hMem hName
  exact h (of_decide_eq_true hName ▸ mem_of_mem_renewEach hMem)

/-- A suffix other than the first has its attempt among the later ones. -/
theorem attemptFor_renewEach_cons (hNew : s ∉ ss) :
    attemptFor t (m.renewEach letters tick (s :: ss)).2 =
      if t = s then (m.renewOne letters tick s).2
      else attemptFor t ((m.renewOne letters tick s).1.renewEach letters tick ss).2 := by
  rw [renewEach_cons]
  by_cases h : t = s
  · have hLater := @attemptFor_renewEach_eq_none letters tick
      (m.renewOne letters tick s).1 s ss hNew
    rw [attemptFor, Option.map_eq_none_iff] at hLater
    subst h
    cases hAttempt : (m.renewOne letters tick t).2 with
    | none => simp [attemptFor, hLater]
    | some a => simp [attemptFor]
  · cases hAttempt : (m.renewOne letters tick s).2 with
    | none => simp [h]
    | some a => simp [attemptFor, h, Ne.symm h]

/-- A tick enters the attempt of each suffix into the record of that suffix. -/
theorem ledger_renewEach (hNodup : ss.Nodup) (hNotifier : m.notifier = true) :
    (m.renewEach letters tick ss).1.ledger t =
      (m.ledger t).enter t tick.now (attemptFor t (m.renewEach letters tick ss).2) := by
  induction ss generalizing m with
  | nil => rfl
  | cons s ss ih =>
      obtain ⟨hNew, hRest⟩ := List.nodup_cons.mp hNodup
      have hNext := @notifier_renewOne letters tick m s
      rw [hNotifier] at hNext
      rw [attemptFor_renewEach_cons hNew, renewEach_cons]
      dsimp only
      rw [ih hRest hNext, ledger_renewOne hNotifier]
      by_cases h : t = s
      · subst h
        rw [if_pos rfl, if_pos rfl, attemptFor_renewEach_eq_none hNew, Ledger.enter]
      · rw [if_neg h, if_neg h]

theorem notifier_renewEach : (m.renewEach letters tick ss).1.notifier = m.notifier := by
  induction ss generalizing m with
  | nil => rfl
  | cons s ss ih =>
      rw [renewEach_cons]
      dsimp only
      rw [ih, notifier_renewOne]

/-- An issuance that fails is reported if the files it leaves do not load. -/
theorem renewOne_of_fails (hNormal : normaliseHost letters.lower s = s) (hSome : s ≠ "")
    (hMkdir : tick.mkdir s = true) (hExpiring : (m.disk s).validFor tick.now s = false)
    (hIssue : (tick.issueCert s (m.disk s)).1 = false) :
    (m.renewOne letters tick s).2 =
      some ⟨some false, ((tick.issueCert s (m.disk s)).2.load letters s).isSome⟩ := by
  have hPaths : Registry.pathsFor letters.lower tick.mkdir s = some s := by
    rw [Registry.pathsFor, hNormal, if_neg hSome, if_pos hMkdir]
  have hInvalid : ¬ (m.disk s).validFor tick.now s = true := by rw [hExpiring]; exact Bool.false_ne_true
  rcases hFiles : tick.issueCert s (m.disk s) with ⟨issued, files⟩
  rw [hFiles] at hIssue
  obtain rfl : issued = false := hIssue
  simp only [renewOne, ensureCert, hPaths, hNormal, if_neg hSome, if_neg hInvalid, hFiles]
  -- the fallback loads what is on disk after the issuance
  cases hLoad : files.load letters s with
  | none => simp [loadSuffix, Registry.loadSuffix, hNormal, hSome, hLoad]
  | some leaf => simp [loadSuffix, Registry.loadSuffix, hNormal, hSome, hLoad]

/-- The suffixes before it in the loop leave the files of a suffix as they are. -/
theorem attemptFor_of_fails (hNodup : ss.Nodup)
    (hNormal : ∀ z ∈ ss, z ≠ "" ∧ normaliseHost letters.lower z = z) (hs : s ∈ ss)
    (hMkdir : tick.mkdir s = true) (hExpiring : (m.disk s).validFor tick.now s = false)
    (hIssue : (tick.issueCert s (m.disk s)).1 = false) :
    attemptFor s (m.renewEach letters tick ss).2 =
      some ⟨some false, ((tick.issueCert s (m.disk s)).2.load letters s).isSome⟩ := by
  induction ss generalizing m with
  | nil => cases hs
  | cons z ss ih =>
      obtain ⟨hNew, hRest⟩ := List.nodup_cons.mp hNodup
      rw [attemptFor_renewEach_cons hNew]
      by_cases hHere : s = z
      · subst hHere
        obtain ⟨hSome, hName⟩ := hNormal s List.mem_cons_self
        rw [if_pos rfl, renewOne_of_fails hName hSome hMkdir hExpiring hIssue]
      · obtain ⟨r, d, st, calls, hRenew, hOthers⟩ := @renewOne_eq letters tick m z
        have hName := (hNormal z List.mem_cons_self).2
        rw [hName, hName] at hOthers
        have hDisk : (m.renewOne letters tick z).1.disk s = m.disk s := by
          rw [hRenew]
          exact (hOthers s hHere).1
        rw [if_neg hHere, ← hDisk]
        rw [← hDisk] at hExpiring hIssue
        exact ih hRest (fun y hy => hNormal y (List.mem_cons_of_mem _ hy))
          ((List.mem_cons.mp hs).resolve_left hHere) hExpiring hIssue

theorem entries_renewEach {z : String} (hNormal : ∀ z ∈ ss, normaliseHost letters.lower z = z)
    (hz : z ∈ (m.renewEach letters tick ss).1.registry.entries) :
    z ∈ m.registry.entries ∨ z ∈ ss := by
  induction ss generalizing m with
  | nil => exact .inl hz
  | cons y ss ih =>
      rw [renewEach_cons] at hz
      dsimp only at hz
      have hEach := ih (fun z hz => hNormal z (List.mem_cons_of_mem _ hz)) hz
      rcases hEach with hFirst | hLater
      · obtain ⟨r, d, st, calls, hRenew, hOthers⟩ := @renewOne_eq letters tick m y
        have hName := hNormal y List.mem_cons_self
        rw [hName, hName] at hOthers
        rw [hRenew] at hFirst
        by_cases hHere : z = y
        · exact .inr (hHere ▸ List.mem_cons_self)
        · exact .inl ((hOthers z hHere).2 hFirst)
      · exact .inr (List.mem_cons_of_mem _ hLater)

end Ledger

/-- What a tick does for a suffix, if its certificate is expiring. -/
def attempt (letters : Letters) (m : Manager) (tick : Tick) (suffix : String) : Option Attempt :=
  attemptFor suffix (m.renewAll letters tick).2

section Run

variable {letters : Letters} {m : Manager} {s : String} {ticks : List Tick}

theorem ledger_step (hNotifier : m.notifier = true) (tick : Tick) :
    (m.step letters tick).ledger s =
      (m.ledger s).enter s tick.now (m.attempt letters tick s) :=
  ledger_renewEach m.registry.nodup_suffixes hNotifier

/-- The suffixes are registered under normal names, so that each has a directory of its own. -/
def Named (letters : Letters) (m : Manager) : Prop :=
  ∀ z ∈ m.registry.entries, z ≠ "" ∧ normaliseHost letters.lower z = z

theorem Named.step (h : m.Named letters) (tick : Tick) : (m.step letters tick).Named letters := by
  intro z hz
  have hNormal : ∀ y ∈ m.registry.suffixes, normaliseHost letters.lower y = y :=
    fun y hy => (h y (Registry.mem_suffixes.mp hy)).2
  rcases entries_renewEach hNormal hz with hOld | hSuffix
  · exact h z hOld
  · exact h z (Registry.mem_suffixes.mp hSuffix)

theorem notifier_run (hNotifier : m.notifier = true) :
    (run (step letters) m ticks).notifier = true :=
  invariant_always (fun n : Manager => n.notifier = true)
    (fun _ _ h => notifier_renewEach.trans h) hNotifier ticks

end Run

end Manager

namespace Ledger

variable {l : Ledger} {s : String} {now : Time} {start : Option Time} {ticks : List Tick}

/-- A call is made if the failures are enough and the last call is long ago. -/
theorem failed_cases :
    (cooledDown now l.state.lastNotification ∧
      (l.failed s now).state.lastNotification = some now ∧
      (l.failed s now).calls = l.calls ++ [⟨s, l.state.consecutiveFailures + 1, now⟩]) ∨
    (¬ (renewalAlertThreshold ≤ l.state.consecutiveFailures + 1 ∧
        cooledDown now l.state.lastNotification) ∧
      (l.failed s now).state.lastNotification = l.state.lastNotification ∧
      (l.failed s now).calls = l.calls) := by
  unfold failed
  dsimp only
  split
  next h => exact .inl ⟨h.2, rfl, rfl⟩
  next h => exact .inr ⟨h, rfl, rfl⟩

theorem consecutiveFailures_failed :
    (l.failed s now).state.consecutiveFailures = l.state.consecutiveFailures + 1 := by
  unfold failed
  dsimp only
  split <;> rfl

theorem lastSuccess_failed : (l.failed s now).state.lastSuccess = l.state.lastSuccess := by
  unfold failed
  dsimp only
  split <;> rfl

/-- The last notification is the one at the start, or a call at one of the ticks. -/
def Noted (start : Option Time) (ticks : List Tick) (l : Ledger) : Prop :=
  ∀ t ∈ l.state.lastNotification,
    t ∈ start ∨ t ∈ ticks.map Tick.now ∧ ∃ call ∈ l.calls, call.time = t

theorem Noted.enter (h : l.Noted start ticks) (tick : Tick) (attempt : Option Attempt) :
    (l.enter s tick.now attempt).Noted start (ticks ++ [tick]) := by
  have hOld : l.Noted start (ticks ++ [tick]) := by
    intro t hLast
    rcases h t hLast with hStart | ⟨hTick, hCall⟩
    · exact .inl hStart
    · exact .inr ⟨by simp [hTick], hCall⟩
  cases attempt with
  | none => exact hOld
  | some attempt =>
      obtain ⟨issued, ok⟩ := attempt
      cases ok with
      | true => exact hOld
      | false =>
          intro t (hFailed : t ∈ (l.failed s tick.now).state.lastNotification)
          rcases @failed_cases l s tick.now with ⟨_, hLast, hCalls⟩ | ⟨_, hLast, hCalls⟩
          · obtain rfl : tick.now = t := Option.some.inj (hLast.symm.trans hFailed)
            exact .inr ⟨by simp, _, hCalls ▸ List.mem_append_right _ List.mem_cons_self, rfl⟩
          · rcases hOld t (hLast ▸ hFailed) with hStart | ⟨hTick, hCall⟩
            · exact .inl hStart
            · exact .inr ⟨hTick, hCalls ▸ hCall⟩

end Ledger

namespace Manager

section Run

variable {letters : Letters} {m : Manager} {s : String}

theorem noted_run (hNotifier : m.notifier = true) (ticks : List Tick) :
    ((run (step letters) m ticks).ledger s).Noted
      (m.record s).lastNotification ticks := by
  induction ticks using List.reverseRecOn with
  | nil => exact fun t ht => .inl ht
  | append_singleton ticks tick ih =>
      rw [run_append]
      exact ledger_step (notifier_run hNotifier) tick ▸ ih.enter tick _

/-- Issuing for the suffix failed, and `EnsureCert` reported it or not. -/
def IssueFailed (letters : Letters) (s : String) (ok : Bool) (m : Manager) (tick : Tick) : Prop :=
  m.attempt letters tick s = some ⟨some false, ok⟩

/-- What is on record after ticks at which issuing failed, the last of them at `now`: at least
as many failures, no success, and once these reach the threshold a call at one of them that is
not older than the cooldown. -/
structure Reported (s : String) (before : Manager) (ticks : List Tick) (now : Time)
    (m : Manager) : Prop where
  failures : ticks.length ≤ (m.record s).consecutiveFailures
  success : (m.record s).lastSuccess = (before.record s).lastSuccess
  called : renewalAlertThreshold ≤ ticks.length → ∃ call ∈ m.calls,
    call.suffix = s ∧ call.time ∈ ticks.map Tick.now ∧ now - call.time ≤ renewalAlertCooldown

variable {ticks : List Tick}

/-- The failures that `EnsureCert` reports are counted, and none is taken for a success. -/
theorem counted_run (hNotifier : m.notifier = true)
    (hFailed : Meets (step letters) (IssueFailed letters s false) m ticks) :
    ticks.length ≤ ((run (step letters) m ticks).record s).consecutiveFailures ∧
      ((run (step letters) m ticks).record s).lastSuccess =
        (m.record s).lastSuccess := by
  induction ticks using List.reverseRecOn with
  | nil => exact ⟨Nat.zero_le _, rfl⟩
  | append_singleton ticks tick ih =>
      obtain ⟨hInit, hLast⟩ := meets_append.mp hFailed
      obtain ⟨hCount, hSuccess⟩ := ih hInit
      have hLedger := @ledger_step letters _ s (@notifier_run letters m ticks hNotifier) tick
      rw [show attempt letters _ tick s = _ from hLast.1] at hLedger
      have hState : ((run (step letters) m ticks).step letters tick).record s = _ :=
        congrArg Ledger.state hLedger
      rw [run_append, run_cons, run_nil, hState, List.length_append]
      exact ⟨Ledger.consecutiveFailures_failed ▸ Nat.succ_le_succ hCount,
        Ledger.lastSuccess_failed.trans hSuccess⟩

variable {tick : Tick}

/-- At the threshold, the last call is not older than the cooldown and was made at one of the
failing ticks, if all earlier ones are older. -/
theorem called_run {before : List Tick} (hNotifier : m.notifier = true)
    (hStart : ∀ t ∈ (m.record s).lastNotification, renewalAlertCooldown < tick.now - t)
    (hBefore : ∀ b ∈ before, renewalAlertCooldown < tick.now - b.now)
    (hFailed : Meets (step letters) (IssueFailed letters s false)
      (run (step letters) m before) (ticks ++ [tick]))
    (hThreshold : renewalAlertThreshold ≤ ticks.length + 1) :
    ∃ call ∈ (run (step letters) m (before ++ (ticks ++ [tick]))).calls,
      call.suffix = s ∧ call.time ∈ (ticks ++ [tick]).map Tick.now ∧
        tick.now - call.time ≤ renewalAlertCooldown := by
  obtain ⟨hInit, hTick⟩ := meets_append.mp hFailed
  have hCount := (counted_run (notifier_run hNotifier) hInit).1
  rw [← run_append] at hTick hCount
  have hLedger := @ledger_step letters _ s (@notifier_run letters m (before ++ ticks) hNotifier) tick
  rw [show attempt letters _ tick s = _ from hTick.1] at hLedger
  rw [← List.append_assoc, run_append, run_cons, run_nil]
  have hCalls {call : Call} (h : call ∈ ((run (step letters) m (before ++ ticks)).ledger
      s |>.failed s tick.now).calls) : call ∈ ((run (step letters) m
        (before ++ ticks)).step letters tick).calls ∧ call.suffix = s := by
    have hMem := congrArg Ledger.calls hLedger ▸ h
    simpa [ledger] using hMem
  rcases Ledger.failed_cases with ⟨_, _, hNew⟩ | ⟨hQuiet, _, hSame⟩
  · obtain ⟨hCall, hSuffix⟩ := hCalls (hNew ▸ List.mem_append_right _ List.mem_cons_self)
    exact ⟨_, hCall, hSuffix, by simp, by simp [renewalAlertCooldown, hour]⟩
  · have hRecent : ¬ cooledDown tick.now
        ((run (step letters) m (before ++ ticks)).record s).lastNotification :=
      fun h => hQuiet ⟨hThreshold.trans (Nat.succ_le_succ hCount), h⟩
    simp only [cooledDown, not_forall, not_lt] at hRecent
    obtain ⟨t, hNotified, hYoung⟩ := hRecent
    rcases noted_run hNotifier (before ++ ticks) t hNotified with hOld | ⟨hTime, call, hCall, rfl⟩
    · exact absurd hYoung (not_le.mpr (hStart t hOld))
    · rw [List.map_append, List.mem_append] at hTime
      rcases hTime with hEarly | hLate
      · obtain ⟨b, hMem, hEq⟩ := List.mem_map.mp hEarly
        exact absurd hYoung (not_le.mpr (hEq ▸ hBefore b hMem))
      · obtain ⟨hCall', hSuffix⟩ := hCalls (hSame ▸ hCall)
        exact ⟨call, hCall', hSuffix, by simp [hLate], hYoung⟩

/-- What is a day older than the first of some daily ticks is two days older than a later one. -/
theorem cooldown_lt_of_apart {fails : List Tick} {t : Int} {n : Nat}
    (hApart : fails.Pairwise fun a b => a.now + 24 * hour ≤ b.now)
    (hOld : ∀ b ∈ fails, t + 24 * hour ≤ b.now) (hTick : fails[n]? = some tick) (hLater : 0 < n) :
    renewalAlertCooldown < tick.now - t := by
  obtain ⟨hLength, rfl⟩ := List.getElem?_eq_some_iff.mp hTick
  have hFirst : t + 24 * hour ≤ (fails[0]).now := hOld _ (List.getElem_mem _)
  have hSpan := List.pairwise_iff_getElem.mp hApart 0 n (Nat.zero_lt_of_lt hLength) hLength hLater
  unfold renewalAlertCooldown hour at *
  omega

/-- In every history of daily ticks, the failures of the ticks at the end are on record and
reach the owner exactly if `EnsureCert` returns an error at each of them. -/
theorem reported_iff_issueFailed {before fails : List Tick} (hNotifier : m.notifier = true)
    (hApart : (before ++ fails).Pairwise fun a b => a.now + 24 * hour ≤ b.now)
    (hStart : ∀ t ∈ (m.record s).lastNotification, ∀ tick ∈ before ++ fails,
      t + 24 * hour ≤ tick.now)
    (hFails : Meets (step letters)
      (fun m tick => ∃ ok, IssueFailed letters s ok m tick)
      (run (step letters) m before) fails) :
    (∀ n tick, fails[n]? = some tick →
      Reported s (run (step letters) m before) (fails.take (n + 1)) tick.now
        (run (step letters) m (before ++ fails.take (n + 1)))) ↔
    Meets (step letters) (IssueFailed letters s false)
      (run (step letters) m before) fails := by
  constructor
  · intro hReported
    apply meets_of_getElem
    intro n tick hTick
    obtain ⟨ok, hIssue⟩ := hFails.getElem hTick
    cases ok with
    | false => exact hIssue
    | true =>
        -- A recorded success sets the count to zero.
        have hCount := (hReported n tick hTick).failures
        rw [run_append, run_take_succ hTick] at hCount
        have hLedger := @ledger_step letters _ s
          (@notifier_run letters _ (fails.take n) (@notifier_run letters m before hNotifier)) tick
        rw [show attempt letters _ tick s = _ from hIssue] at hLedger
        have hState : (step letters (run (step letters) (run (step letters) m
            before) (fails.take n)) tick).record s = _ := congrArg Ledger.state hLedger
        rw [hState, List.take_add_one, hTick, List.length_append] at hCount
        exact absurd hCount (Nat.not_succ_le_zero _)
  · intro hFailed n tick hTick
    obtain ⟨hCount, hSuccess⟩ := counted_run (notifier_run hNotifier) (hFailed.take (n + 1))
    rw [← run_append] at hCount hSuccess
    refine ⟨hCount, hSuccess, ?_⟩
    intro hThreshold
    have hTaken : fails.take (n + 1) = fails.take n ++ [tick] := by
      rw [List.take_add_one, hTick, Option.toList_some]
    have hLater : 0 < n := by
      have hShort := hThreshold.trans (List.length_take_le (n + 1) fails)
      unfold renewalAlertThreshold at hShort
      omega
    obtain ⟨_, hAfter, hAcross⟩ := List.pairwise_append.mp hApart
    have hStale : ∀ t ∈ (m.record s).lastNotification, renewalAlertCooldown < tick.now - t :=
      fun t ht => cooldown_lt_of_apart hAfter
        (fun b hb => hStart t ht b (List.mem_append_right _ hb)) hTick hLater
    have hBefore : ∀ b ∈ before, renewalAlertCooldown < tick.now - b.now :=
      fun b hb => cooldown_lt_of_apart hAfter (hAcross b hb) hTick hLater
    have hTake := hFailed.take (n + 1)
    rw [hTaken] at hTake hThreshold ⊢
    rw [List.length_append] at hThreshold
    exact called_run hNotifier hStale hBefore hTake hThreshold

/-- A registered suffix has no certificate that is valid for long, and `IssueCert` fails for it. -/
def RenewalFails (s : String) (m : Manager) (tick : Tick) : Prop :=
  s ∈ m.registry.entries ∧ tick.mkdir s = true ∧ (m.disk s).validFor tick.now s = false ∧
    (tick.issueCert s (m.disk s)).1 = false

/-- The files that `IssueCert` leaves in the directory of the suffix do not load. -/
def LeavesNone (letters : Letters) (s : String) (m : Manager) (tick : Tick) : Prop :=
  (tick.issueCert s (m.disk s)).2.load letters s = none

/-- After a failed issuance `EnsureCert` returns nil if the files that are there load. -/
theorem attempt_of_fails (hNamed : m.Named letters) (h : RenewalFails s m tick) :
    m.attempt letters tick s =
      some ⟨some false, ((tick.issueCert s (m.disk s)).2.load letters s).isSome⟩ := by
  obtain ⟨hMem, hMkdir, hExpiring, hIssue⟩ := h
  exact attemptFor_of_fails m.registry.nodup_suffixes
    (fun z hz => hNamed z (Registry.mem_suffixes.mp hz)) (Registry.mem_suffixes.mpr hMem) hMkdir
    hExpiring hIssue

theorem issueFailed_iff (hNamed : m.Named letters) (h : RenewalFails s m tick) :
    IssueFailed letters s false m tick ↔ LeavesNone letters s m tick := by
  rw [IssueFailed, attempt_of_fails hNamed h, LeavesNone]
  cases (tick.issueCert s (m.disk s)).2.load letters s <;> simp

/-- In every history of daily ticks, failures to issue a certificate at the ticks at the end are on
record and reach the owner exactly if at each of these ticks the files of the suffix do not load
after the failed issuance. If they do, `EnsureCert` goes on with them and the failure counts as a
success. -/
theorem renewal_failures_reported_iff {before fails : List Tick} (hNotifier : m.notifier = true)
    (hNamed : m.Named letters)
    (hApart : (before ++ fails).Pairwise fun a b => a.now + 24 * hour ≤ b.now)
    (hStart : ∀ t ∈ (m.record s).lastNotification, ∀ tick ∈ before ++ fails,
      t + 24 * hour ≤ tick.now)
    (hFails : Meets (step letters) (RenewalFails s) (run (step letters) m before)
      fails) :
    (∀ n tick, fails[n]? = some tick →
      Reported s (run (step letters) m before) (fails.take (n + 1)) tick.now
        (run (step letters) m (before ++ fails.take (n + 1)))) ↔
    Meets (step letters) (LeavesNone letters s) (run (step letters) m before)
      fails := by
  have hNames : ∀ n, (run (step letters) (run (step letters) m before)
      (fails.take n)).Named letters := by
    intro n
    rw [← run_append]
    exact invariant_always (Named letters) (fun _ tick h => h.step tick) hNamed _
  have hSame : ∀ n tick, fails[n]? = some tick →
      (IssueFailed letters s false (run (step letters) (run (step letters) m before)
          (fails.take n)) tick ↔
        LeavesNone letters s (run (step letters) (run (step letters) m before)
          (fails.take n)) tick) :=
    fun n tick hTick => issueFailed_iff (hNames n) (hFails.getElem hTick)
  rw [reported_iff_issueFailed hNotifier hApart hStart (meets_of_getElem fun n tick hTick =>
    ⟨_, attempt_of_fails (hNames n) (hFails.getElem hTick)⟩)]
  constructor
  · exact fun h => meets_of_getElem fun n tick hTick => (hSame n tick hTick).mp (h.getElem hTick)
  · exact fun h => meets_of_getElem fun n tick hTick => (hSame n tick hTick).mpr (h.getElem hTick)

end Run

/-- A manager with one suffix, whose certificate expires in ten days and whose files load. -/
def expiring : Manager :=
  let leaf : Leaf := ⟨10 * 24 * hour, ["*.home.example"], ""⟩
  { registry := ⟨AList.singleton "home.example" ⟨some leaf⟩⟩
    disk := fun _ => ⟨some leaf, true⟩
    renewalState := ∅
    notifier := true
    calls := [] }

/-- Three days on which no certificate is issued. The files stay as they are, or `IssueCert` fails
when it has replaced the certificate, by one that is valid for no longer, but not the key. -/
def refused (replaced : Bool) : List Tick :=
  [1, 2, 3].map fun day =>
    ⟨day * (24 * hour), fun _ => true, fun _ files =>
      (false, { files with paired := files.paired && !replaced })⟩

/-- Issuing fails three days in a row while the old files load: the record shows a success on
the third day and no failure, and nobody is called. -/
theorem failed_renewals_recorded_as_success :
    Meets (step .ascii) (fun m tick => RenewalFails "home.example" m tick ∧
        ((m.disk "home.example").load .ascii "home.example").isSome = true)
        expiring (refused false) ∧
      (run (step .ascii) expiring (refused false)).record "home.example" =
        { consecutiveFailures := 0, lastAttempt := some (3 * (24 * hour))
          lastSuccess := some (3 * (24 * hour)), lastNotification := none } ∧
      (run (step .ascii) expiring (refused false)).calls = [] := by
  unfold RenewalFails
  exact ⟨⟨by decide +kernel, by decide +kernel, by decide +kernel, trivial⟩, by decide +kernel,
    by decide +kernel⟩

/-- The files load until the first of three failed issuances has replaced the certificate, and all
three failures are reported. -/
theorem unloadable_renewals_reported :
    ((expiring.disk "home.example").load .ascii "home.example").isSome = true ∧
      Meets (step .ascii) (RenewalFails "home.example") expiring (refused true) ∧
      ∀ n tick, (refused true)[n]? = some tick →
        Reported "home.example" expiring ((refused true).take (n + 1)) tick.now
          (run (step .ascii) expiring ((refused true).take (n + 1))) := by
  have hFails : Meets (step .ascii) (RenewalFails "home.example") expiring
      (refused true) := by
    unfold RenewalFails
    exact ⟨by decide +kernel, by decide +kernel, by decide +kernel, trivial⟩
  have hNone : Meets (step .ascii) (LeavesNone .ascii "home.example") expiring
      (refused true) := by
    unfold LeavesNone
    exact ⟨by decide +kernel, by decide +kernel, by decide +kernel, trivial⟩
  have hNamed : expiring.Named .ascii := by
    intro z hz
    obtain rfl : z = "home.example" := by
      simpa [expiring, AList.mem_keys, AList.singleton, AList.keys, List.keys] using hz
    decide +kernel
  have hApart : (([] : List Tick) ++ refused true).Pairwise fun a b => a.now + 24 * hour ≤ b.now := by
    decide +kernel
  have hFresh : (expiring.record "home.example").lastNotification = none := by
    decide +kernel
  refine ⟨by decide +kernel, hFails, (renewal_failures_reported_iff rfl hNamed hApart ?_ hFails).mpr
    hNone⟩
  intro t ht
  exact absurd ht (hFresh ▸ Option.not_mem_none t)

end Manager

end Certs
