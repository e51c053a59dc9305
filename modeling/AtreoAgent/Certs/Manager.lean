import AtreoAgent.Certs.Registry

/-! Issuing and renewing certificates (`manager.go`). Once a day every registered suffix
whose certificate is about to expire is renewed, and the outcome is recorded. The owner is
told when a suffix has failed several times, and not more often than the cooldown allows. -/
namespace Certs

open Codec Atreolink

/-- Nanoseconds. -/
def hour : Int := 3600 * 1000000000

def renewBefore : Int := 30 * 24 * hour

def renewalAlertThreshold : Nat := 3

def renewalAlertCooldown : Int := 24 * hour

/-- The zero time is `none`. -/
structure RenewalState where
  consecutiveFailures : Nat := 0
  lastAttempt : Option Time := none
  lastSuccess : Option Time := none
  lastNotification : Option Time := none
  deriving DecidableEq, Repr

/-- A call of the owner notifier. -/
structure Call where
  suffix : String
  failures : Nat
  time : Time
  deriving DecidableEq, Repr

/-- The manager with the files it works on, and the calls it has made. -/
structure Manager where
  registry : Registry
  disk : Disk
  renewalState : StringMap RenewalState
  /-- Whether a notifier is set. -/
  notifier : Bool
  calls : List Call

/-- The time and the outcomes of what the manager asks for: the directory of a suffix, and
a certificate for it, which may leave other files behind even if it fails. -/
structure Tick where
  now : Time
  mkdir : String → Bool
  issueCert : String → Files → Bool × Files

/-- What came of `EnsureCert`: whether `IssueCert` succeeded, if it was called, and whether
the result is nil. -/
structure Attempt where
  issued : Option Bool
  ok : Bool
  deriving DecidableEq, Repr

def Files.validFor (now : Time) (files : Files) (suffix : String) : Bool :=
  match files.leaf with
  | none => false
  | some leaf =>
      renewBefore < leaf.notAfter - now &&
        (suffix = "" || leaf.dnsNames.any (fun dns => dns = "*." ++ suffix ∨ dns = suffix) ||
          leaf.commonName = suffix)

/-- More than the cooldown has passed since the last notification. -/
def cooledDown (now : Time) (last : Option Time) : Prop :=
  ∀ t ∈ last, renewalAlertCooldown < now - t

instance (now : Time) (last : Option Time) : Decidable (cooledDown now last) :=
  inferInstanceAs (Decidable (∀ t ∈ last, renewalAlertCooldown < now - t))

namespace Manager

variable (letters : Letters)

def loadSuffix (m : Manager) (host : String) : Option Manager :=
  (m.registry.loadSuffix letters m.disk host).map fun r => { m with registry := r }

/-- If issuing fails, the files that are there are used. -/
def ensureCert (tick : Tick) (m : Manager) (suffix : String) : Manager × Attempt :=
  let suffix := normaliseHost letters.lower suffix
  if suffix = "" then (m, ⟨none, false⟩)
  else
    match Registry.pathsFor letters.lower tick.mkdir suffix with
    | none => (m, ⟨none, false⟩)
    | some dir =>
        match if (m.disk dir).validFor tick.now suffix then m.loadSuffix letters suffix else none with
        | some loaded => (loaded, ⟨none, true⟩)
        | none =>
            let (issued, files) := tick.issueCert suffix (m.disk dir)
            let m := { m with disk := m.disk.write dir files }
            match m.loadSuffix letters suffix with
            | some loaded => (loaded, ⟨some issued, true⟩)
            | none => (m, ⟨some issued, false⟩)

/-- An issuance that leaves files which load registers the suffix. -/
theorem ensureCert_of_issued {letters : Letters} {tick : Tick} {m : Manager} {suffix : String}
    (hNormal : normaliseHost letters.lower suffix = suffix) (hSome : suffix ≠ "")
    (hMkdir : tick.mkdir suffix = true)
    (hIssued : ((tick.issueCert suffix (m.disk suffix)).2.load letters suffix).isSome = true) :
    (m.ensureCert letters tick suffix).2.ok = true ∧
      ∃ leaf, (m.ensureCert letters tick suffix).1.registry =
        ⟨m.registry.entries.insert suffix ⟨some leaf⟩⟩ := by
  have hLoad {n loaded : Manager} (h : n.loadSuffix letters suffix = some loaded) :
      ∃ leaf, loaded.registry = ⟨n.registry.entries.insert suffix ⟨some leaf⟩⟩ := by
    obtain ⟨r, hr, rfl⟩ := Option.map_eq_some_iff.mp h
    rw [Registry.loadSuffix, hNormal, if_neg hSome] at hr
    obtain ⟨leaf, _, rfl⟩ := Option.map_eq_some_iff.mp hr
    exact ⟨leaf, rfl⟩
  have hPaths : Registry.pathsFor letters.lower tick.mkdir suffix = some suffix := by
    rw [Registry.pathsFor, hNormal, if_neg hSome, if_pos hMkdir]
  obtain ⟨leaf, hLeaf⟩ := Option.isSome_iff_exists.mp hIssued
  rcases hIssue : tick.issueCert suffix (m.disk suffix) with ⟨issued, files⟩
  rw [hIssue] at hLeaf
  simp only [ensureCert, hNormal, if_neg hSome, hPaths, hIssue]
  split
  next loaded hValid =>
    split at hValid
    · exact ⟨rfl, hLoad hValid⟩
    · cases hValid
  · split
    next loaded hFallback =>
      obtain ⟨leaf, hRegistry⟩ := hLoad hFallback
      exact ⟨rfl, leaf, hRegistry⟩
    next hNone =>
      simp [loadSuffix, Registry.loadSuffix, hNormal, hSome, hLeaf] at hNone

/-- The record of a suffix; a missing one counts as empty. -/
def record (m : Manager) (suffix : String) : RenewalState :=
  (m.renewalState.lookup suffix).getD {}

def recordRenewalFailure (now : Time) (m : Manager) (suffix : String) : Manager :=
  let st := m.record suffix
  let failures := st.consecutiveFailures + 1
  let st := { st with consecutiveFailures := failures, lastAttempt := some now }
  if renewalAlertThreshold ≤ failures ∧ cooledDown now st.lastNotification ∧ m.notifier then
    { m with
      renewalState := m.renewalState.insert suffix { st with lastNotification := some now }
      calls := m.calls ++ [⟨suffix, failures, now⟩] }
  else { m with renewalState := m.renewalState.insert suffix st }

def recordRenewalSuccess (now : Time) (m : Manager) (suffix : String) : Manager :=
  { m with
    renewalState := m.renewalState.insert suffix
      { m.record suffix with
        consecutiveFailures := 0, lastAttempt := some now, lastSuccess := some now } }

/-- One suffix of `renewAll`. -/
def renewOne (tick : Tick) (m : Manager) (suffix : String) : Manager × Option Attempt :=
  match Registry.pathsFor letters.lower tick.mkdir suffix with
  | none => (m, none)
  | some dir =>
      if (m.disk dir).validFor tick.now suffix then (m, none)
      else
        let (m, attempt) := m.ensureCert letters tick suffix
        (if attempt.ok then m.recordRenewalSuccess tick.now suffix
          else m.recordRenewalFailure tick.now suffix, some attempt)

/-- The suffixes one after the other, with the attempts that were made. -/
def renewEach (tick : Tick) : Manager → List String → Manager × List (String × Attempt)
  | m, [] => (m, [])
  | m, s :: ss =>
      let (m, attempt) := m.renewOne letters tick s
      let (m, attempts) := renewEach tick m ss
      (m, (attempt.map fun a => (s, a)).toList ++ attempts)

def renewAll (tick : Tick) (m : Manager) : Manager × List (String × Attempt) :=
  m.renewEach letters tick m.registry.suffixes

/-- One tick of the daily timer. -/
def step (m : Manager) (tick : Tick) : Manager := (m.renewAll letters tick).1

end Manager

end Certs
