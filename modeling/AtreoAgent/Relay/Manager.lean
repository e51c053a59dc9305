import AtreoAgent.Machine.Run
import AtreoAgent.Relay.Control

/-! The relay client as a machine (`Manager` in `client.go`). One goroutine runs the loop that asks
for grants and keeps a session up; `SetGrant`, `SetKeepAlive` and `Wake` are called from others. What
is done under the lock is one step, and so is each call that is made outside of it; between two
steps of a goroutine any of the others may move. The answers of the callbacks, the clock and what
comes of a connection are given with the step. Timers may fire at any time. -/
namespace Relay

open Codec

/-- Nanoseconds. -/
def grantReqMinInterval : Int := 30 * 1000000000

def relayFailoverThreshold : Nat := 3

namespace Manager

/-- A grant and what was read from it. -/
abbrev Held := SignedGrant × Grant

/-- What follows a request for a grant. -/
inductive Next where
  /-- None was there, or an expired one. -/
  | await (seen : Option Held)
  | session (held : Held)
  | pause (held : Held)
  deriving DecidableEq, Repr

/-- Where the loop is. The grant it goes by was read in this round. -/
inductive Loop where
  | stopped
  | top
  /-- `keepAlive` was not set, and `shouldRelay` is asked. -/
  | asking
  /-- Waits because the relay is not wanted. -/
  | unwanted
  | examining
  | requesting (failedHost : String) (next : Next)
  | sending (failedHost : String) (askedAt : Int) (next : Next)
  /-- Waits for a grant. -/
  | awaiting (seen : Option Held)
  | opening (held : Held)
  | connecting (session : Nat) (held : Held)
  /-- The shim runs. -/
  | up (session : Nat) (held : Held) (ready : ReadyPayload)
  /-- The deferred calls of `runSession`. -/
  | leaving (session : Nat) (held : Held) (ready : Option ReadyPayload)
  /-- `runSession` has returned. -/
  | ended (held : Held) (ready : Option ReadyPayload)
  /-- Too many sessions have failed. -/
  | unreachable (held : Held)
  /-- Waits before the next attempt. -/
  | pausing (held : Held)
  | returned
  deriving DecidableEq, Repr

/-- A call of `SetGrant` or `SetKeepAlive` that has released the lock. -/
inductive Call where
  /-- `SetKeepAlive`, about to read `keepAlive` again. -/
  | checking (cancel : Option Nat)
  | asking (cancel : Option Nat)
  | cancelling (session : Nat)
  | waking
  deriving DecidableEq, Repr

/-- What the coordination service and the relays see of the agent. -/
inductive Entry where
  | session (host : String) (established : Bool)
  | request (failedHost : String) (askedAt sentAt : Int)
  deriving DecidableEq, Repr

inductive Waking where
  | done | wake | timeout
  deriving DecidableEq, Repr

inductive Event where
  | setRequester
  | setGrant (sg : SignedGrant)
  | setKeepAlive (keep : Bool)
  /-- The call at a position goes on. -/
  | call (i : Nat) (shouldRelay : Bool)
  | wake
  | shutdown
  | start
  | check
  | answer (shouldRelay : Bool)
  /-- The clock is read for the expiry and, later, for the refresh. -/
  | examine (now later : Int)
  | request (now : Int)
  | sent (ok : Bool) (now : Int)
  | wait (by_ : Waking)
  | openSession
  | connect (c : Connection)
  | sessionEnds
  | leave
  | clear
  | isSticky
  deriving DecidableEq, Repr

end Manager

open Manager in
structure Manager where
  enabled : Bool
  grant : Option Held := none
  endpoint : String := ""
  started : Bool := false
  /-- Whether `SetRequester` was called. -/
  request : Bool := false
  lastRequest : Option Int := none
  keepAlive : Bool := false
  /-- The session that `cancelSession` is for. -/
  cancelSession : Option Nat := none
  /-- Whether the channel, which has room for one, is full. -/
  wake : Bool := false
  /-- The context of the agent is done. -/
  done : Bool := false
  /-- The sessions whose context was cancelled by `SetKeepAlive`. -/
  cancelled : List Nat := []
  loop : Relay.Manager.Loop := .stopped
  attempt : Nat := 0
  failures : Nat := 0
  /-- Sessions begun so far. -/
  sessions : Nat := 0
  calls : List Call := []
  /-- The latest first. -/
  trace : List Entry := []
  deriving DecidableEq, Repr

namespace Manager

def new (enabled : Bool) : Manager := { enabled := enabled }

/-- `SetGrant` under the lock. A grant that does not parse is ignored. -/
def setGrant (m : Manager) (sg : SignedGrant) : Manager :=
  match sg.parse with
  | .error _ => m
  | .ok info => { m with grant := some (sg, info), calls := m.calls ++ [.waking] }

/-- `SetKeepAlive` under the lock. -/
def setKeepAlive (m : Manager) (keep : Bool) : Manager :=
  { m with keepAlive := keep, calls := m.calls ++ [.checking m.cancelSession] }

/-- A call takes its next step; `shouldRelay` is the answer of the callback. -/
def stepCall (m : Manager) (i : Nat) (shouldRelay : Bool) : Manager :=
  match m.calls[i]? with
  | none => m
  | some (.checking cancel) =>
      { m with calls := m.calls.set i (if m.keepAlive then .waking else .asking cancel) }
  | some (.asking none) => { m with calls := m.calls.set i .waking }
  | some (.asking (some session)) =>
      { m with calls := m.calls.set i (if shouldRelay then .waking else .cancelling session) }
  | some (.cancelling session) =>
      { m with cancelled := session :: m.cancelled, calls := m.calls.set i .waking }
  | some .waking => { m with wake := true, calls := m.calls.eraseIdx i }

/-- `Start`. -/
def start (m : Manager) : Manager :=
  if m.started ∨ !m.enabled then m else { m with started := true, loop := .top }

/-- `current`, and what the loop makes of the grant. -/
def examine (m : Manager) (now later : Int) : Loop :=
  match m.grant with
  | none => .requesting "" (.await none)
  | some held =>
      if grantExpired now held.2 then .requesting "" (.await (some held))
      else if grantExpiring later held.2 then .requesting "" (.session held)
      else .opening held

def Next.loop : Next → Loop
  | await seen => .awaiting seen
  | session held => .opening held
  | pause held => .pausing held

/-- `requestGrant` under the lock. -/
def throttled (m : Manager) (failedHost : String) (now : Int) : Bool :=
  failedHost = "" && m.lastRequest.any fun last => now - last < grantReqMinInterval

/-- The end of a wait. -/
def rouse (m : Manager) (by_ : Waking) (next : Manager → Manager) : Manager :=
  match by_ with
  | .done => if m.done then { m with loop := .returned } else m
  | .wake => if m.wake then next { m with wake := false } else m
  | .timeout => next m

/-- The session did not come up. -/
def fail (m : Manager) (held : Held) : Manager :=
  if relayFailoverThreshold ≤ m.failures + 1 then
    { m with failures := m.failures + 1, loop := .unreachable held }
  else { m with failures := m.failures + 1, loop := .pausing held }

/-- An event of a goroutine that is somewhere else changes nothing. -/
def step (sign : Bytes → String) (m : Manager) : Event → Manager
  | .setRequester => { m with request := true }
  | .setGrant sg => m.setGrant sg
  | .setKeepAlive keep => m.setKeepAlive keep
  | .call i shouldRelay => m.stepCall i shouldRelay
  | .wake => { m with wake := true }
  | .shutdown => { m with done := true }
  | .start => m.start
  | .check =>
      match m.loop with
      | .top =>
          { m with loop := if m.done then .returned else if m.keepAlive then .examining else .asking }
      | _ => m
  | .answer shouldRelay =>
      match m.loop with
      | .asking => { m with loop := if shouldRelay then .examining else .unwanted }
      | _ => m
  | .examine now later =>
      match m.loop with
      | .examining => { m with loop := m.examine now later }
      | _ => m
  | .request now =>
      match m.loop with
      | .requesting failedHost next =>
          if m.request = false ∨ m.throttled failedHost now then { m with loop := next.loop }
          else { m with loop := .sending failedHost now next }
      | _ => m
  | .sent ok now =>
      match m.loop with
      | .sending failedHost askedAt next =>
          -- a request that was not sent does not count for the interval
          if ok then
            { m with
              lastRequest := some now
              loop := next.loop
              trace := .request failedHost askedAt now :: m.trace }
          else { m with loop := next.loop }
      | _ => m
  | .wait by_ =>
      match m.loop with
      | .unwanted | .awaiting _ => m.rouse by_ ({ · with loop := .top })
      | .pausing _ => m.rouse by_ fun m => { m with loop := .top, attempt := m.attempt + 1 }
      | _ => m
  | .openSession =>
      match m.loop with
      | .opening held =>
          { m with
            cancelSession := some m.sessions
            sessions := m.sessions + 1
            loop := .connecting m.sessions held }
      | _ => m
  | .connect c =>
      match m.loop with
      | .connecting session held =>
          match c.open sign held.1 held.2 with
          | none => { m with loop := .leaving session held none }
          | some ready =>
              { m with endpoint := ready.endpoint held.2, loop := .up session held ready }
      | _ => m
  | .sessionEnds =>
      match m.loop with
      | .up session held ready => { m with loop := .leaving session held (some ready) }
      | _ => m
  | .leave =>
      match m.loop with
      | .leaving _ held ready => { m with cancelSession := none, loop := .ended held ready }
      | _ => m
  | .clear =>
      match m.loop with
      | .ended held ready =>
          let free :=
            { m with endpoint := "", trace := .session held.2.relayHost ready.isSome :: m.trace }
          if ready.isSome then { free with attempt := 0, failures := 0, loop := .pausing held }
          else free.fail held
      | _ => m
  | .isSticky =>
      match m.loop with
      | .unreachable held =>
          { m with
            failures := 0
            loop :=
              if m.keepAlive then .pausing held else .requesting held.2.relayHost (.pause held) }
      | _ => m

/-- `relayWanted`: `keepAlive` as it was read, and the answer of the callback. -/
def relayWanted (keepAlive shouldRelay : Bool) : Bool := keepAlive || shouldRelay

/-- `Endpoint`. The endpoint is read first and `keepAlive` later, in what may be another state. -/
def readEndpoint (atFirst later : Manager) (shouldRelay : Bool) : String × Bool :=
  (atFirst.endpoint,
    atFirst.endpoint ≠ "" && atFirst.enabled && relayWanted later.keepAlive shouldRelay)

/-- The loop goes on to ask for a grant or to open a session. -/
theorem examine_cases (m : Manager) (now later : Int) :
    (∃ next, m.examine now later = .requesting "" next) ∨
      ∃ held, m.examine now later = .opening held := by
  unfold examine
  split
  · exact .inl ⟨_, rfl⟩
  next held _ =>
    split_ifs
    · exact .inl ⟨_, rfl⟩
    · exact .inl ⟨_, rfl⟩
    · exact .inr ⟨held, rfl⟩

variable {sign : Bytes → String}

/-- What one step may do; the event is given where it matters. -/
inductive Change (sign : Bytes → String) : Manager → Event → Manager → Prop where
  | stay (m) (e) : Change sign m e m
  | requester (m) (e) : Change sign m e { m with request := true }
  | grant {m} {sg : SignedGrant} {info : Grant} (parses : sg.parse = .ok info) :
      Change sign m (.setGrant sg)
        { m with grant := some (sg, info), calls := m.calls ++ [.waking] }
  | keep (m) (keep : Bool) :
      Change sign m (.setKeepAlive keep)
        { m with keepAlive := keep, calls := m.calls ++ [.checking m.cancelSession] }
  | call {m e} {i : Nat} {c : Call} (present : m.calls[i]? = some c) (next : Call) (cancelled : List Nat) :
      Change sign m e { m with cancelled := cancelled, calls := m.calls.set i next }
  | callWakes (m) (e) (calls : List Call) : Change sign m e { m with wake := true, calls := calls }
  | wake (m) (e) : Change sign m e { m with wake := true }
  | shutdown (m) (e) : Change sign m e { m with done := true }
  | start {m e} (enabled : m.enabled = true) (idle : m.started = false) :
      Change sign m e { m with started := true, loop := .top }
  | stop {m e} (running : m.loop ≠ .stopped) (done : m.done = true)
      (quiet : m.loop = .top ∨ m.loop = .unwanted ∨ (∃ seen, m.loop = .awaiting seen) ∨
        ∃ held, m.loop = .pausing held) :
      Change sign m e { m with loop := .returned }
  | wanted {m e} (here : m.loop = .top) (keep : m.keepAlive = true) :
      Change sign m e { m with loop := .examining }
  | ask {m e} (here : m.loop = .top) (keep : m.keepAlive = false) :
      Change sign m e { m with loop := .asking }
  | answer {m} (here : m.loop = .asking) (shouldRelay : Bool) :
      Change sign m (.answer shouldRelay)
        { m with loop := if shouldRelay then .examining else .unwanted }
  | examine {m e} (here : m.loop = .examining) (now later : Int) :
      Change sign m e { m with loop := m.examine now later }
  | skip {m e} {failedHost : String} {next : Next} (here : m.loop = .requesting failedHost next) :
      Change sign m e { m with loop := next.loop }
  | request {m e} {failedHost : String} {next : Next} (here : m.loop = .requesting failedHost next)
      {now : Int} (allowed : m.throttled failedHost now = false) :
      Change sign m e { m with loop := .sending failedHost now next }
  | sent {m e} {failedHost : String} {askedAt : Int} {next : Next}
      (here : m.loop = .sending failedHost askedAt next) (now : Int) :
      Change sign m e
        { m with
          lastRequest := some now
          loop := next.loop
          trace := .request failedHost askedAt now :: m.trace }
  | unsent {m e} {failedHost : String} {askedAt : Int} {next : Next}
      (here : m.loop = .sending failedHost askedAt next) :
      Change sign m e { m with loop := next.loop }
  | again {m e} {wake : Bool} {attempt : Nat}
      (here : m.loop = .unwanted ∨ (∃ seen, m.loop = .awaiting seen) ∨ ∃ held, m.loop = .pausing held) :
      Change sign m e { m with wake := wake, loop := .top, attempt := attempt }
  | openSession {m e} {held : Held} (here : m.loop = .opening held) :
      Change sign m e
        { m with
          cancelSession := some m.sessions
          sessions := m.sessions + 1
          loop := .connecting m.sessions held }
  | fails {m e} {session : Nat} {held : Held} (here : m.loop = .connecting session held) :
      Change sign m e { m with loop := .leaving session held none }
  | comesUp {m} {session : Nat} {held : Held} (here : m.loop = .connecting session held)
      {c : Connection} {ready : ReadyPayload} (opens : c.open sign held.1 held.2 = some ready) :
      Change sign m (.connect c) { m with endpoint := ready.endpoint held.2, loop := .up session held ready }
  | ends {m e} {session : Nat} {held : Held} {ready : ReadyPayload}
      (here : m.loop = .up session held ready) :
      Change sign m e { m with loop := .leaving session held (some ready) }
  | leave {m e} {session : Nat} {held : Held} {ready : Option ReadyPayload}
      (here : m.loop = .leaving session held ready) :
      Change sign m e { m with cancelSession := none, loop := .ended held ready }
  | succeeded {m e} {held : Held} {ready : ReadyPayload} (here : m.loop = .ended held (some ready)) :
      Change sign m e
        { m with
          endpoint := ""
          trace := .session held.2.relayHost true :: m.trace
          attempt := 0
          failures := 0
          loop := .pausing held }
  | failed {m e} {held : Held} (here : m.loop = .ended held none) :
      Change sign m e
        { m with
          endpoint := ""
          trace := .session held.2.relayHost false :: m.trace
          failures := m.failures + 1
          loop := if relayFailoverThreshold ≤ m.failures + 1 then .unreachable held else .pausing held }
  | sticky {m e} {held : Held} (here : m.loop = .unreachable held) :
      Change sign m e
        { m with
          failures := 0
          loop := if m.keepAlive then .pausing held else .requesting held.2.relayHost (.pause held) }

theorem change_stepCall (m : Manager) (i : Nat) (shouldRelay : Bool) :
    Change sign m (.call i shouldRelay) (m.stepCall i shouldRelay) := by
  unfold stepCall
  split
  · exact .stay m _
  next cancel hCall => exact .call hCall _ m.cancelled
  next hCall => exact .call hCall _ m.cancelled
  next session hCall => exact .call hCall _ m.cancelled
  next session hCall => exact .call hCall _ _
  next hCall => exact .callWakes m _ _

theorem change_rouse {m : Manager} (by_ : Waking) {next : Manager → Manager}
    (here : m.loop = .unwanted ∨ (∃ seen, m.loop = .awaiting seen) ∨ ∃ held, m.loop = .pausing held)
    (hNext : ∀ wake, ∃ attempt,
      next { m with wake := wake } = { m with wake := wake, loop := .top, attempt := attempt }) :
    Change sign m (.wait by_) (m.rouse by_ next) := by
  cases by_ with
  | done =>
      rw [rouse]
      split
      next hDone =>
        refine .stop ?_ hDone (.inr here)
        rcases here with h | ⟨_, h⟩ | ⟨_, h⟩ <;> rw [h] <;> exact nofun
      · exact .stay m _
  | wake =>
      rw [rouse]
      split
      · obtain ⟨attempt, hSame⟩ := hNext false
        rw [hSame]
        exact .again here
      · exact .stay m _
  | timeout =>
      obtain ⟨attempt, hSame⟩ := hNext m.wake
      rw [rouse, hSame]
      exact .again here

theorem change_step (m : Manager) (e : Event) : Change sign m e (m.step sign e) := by
  cases e with
  | setRequester => exact .requester m _
  | setGrant sg =>
      rw [step, setGrant]
      split
      · exact .stay m _
      next info hParse => exact .grant hParse
  | setKeepAlive keep => exact .keep m keep
  | call i shouldRelay => exact change_stepCall m i shouldRelay
  | wake => exact .wake m _
  | shutdown => exact .shutdown m _
  | start =>
      rw [step, start]
      split
      · exact .stay m _
      next h =>
        simp only [Bool.not_eq_true', not_or, Bool.not_eq_true, Bool.not_eq_false] at h
        exact .start h.2 h.1
  | check =>
      rw [step]
      split
      next hHere =>
        split_ifs with hDone hKeep
        · exact .stop (by rw [hHere]; exact nofun) hDone (.inl hHere)
        · exact .wanted hHere hKeep
        · exact .ask hHere (by simpa using hKeep)
      · exact .stay m _
  | answer shouldRelay =>
      rw [step]
      split
      next hHere => exact .answer hHere shouldRelay
      · exact .stay m _
  | examine now later =>
      rw [step]
      split
      next hHere => exact .examine hHere now later
      · exact .stay m _
  | request now =>
      rw [step]
      split
      next failedHost next hHere =>
        split
        · exact .skip hHere
        next hAllowed =>
          rw [not_or, Bool.not_eq_true] at hAllowed
          exact .request hHere hAllowed.2
      · exact .stay m _
  | sent ok now =>
      rw [step]
      split
      next failedHost askedAt next hHere =>
        split
        · exact .sent hHere now
        · exact .unsent hHere
      · exact .stay m _
  | wait by_ =>
      rw [step]
      split
      next hHere => exact change_rouse by_ (.inl hHere) fun wake => ⟨m.attempt, rfl⟩
      next seen hHere => exact change_rouse by_ (.inr (.inl ⟨seen, hHere⟩)) fun wake => ⟨m.attempt, rfl⟩
      next held hHere =>
        exact change_rouse by_ (.inr (.inr ⟨held, hHere⟩)) fun wake => ⟨m.attempt + 1, rfl⟩
      · exact .stay m _
  | openSession =>
      rw [step]
      split
      next held hHere => exact .openSession hHere
      · exact .stay m _
  | connect c =>
      rw [step]
      split
      next session held hHere =>
        split
        · exact .fails hHere
        next ready hOpens => exact .comesUp hHere hOpens
      · exact .stay m _
  | sessionEnds =>
      rw [step]
      split
      next session held ready hHere => exact .ends hHere
      · exact .stay m _
  | leave =>
      rw [step]
      split
      next session held ready hHere => exact .leave hHere
      · exact .stay m _
  | clear =>
      rw [step]
      split
      next held ready hHere =>
        cases ready with
        | some ready => exact .succeeded hHere
        | none =>
            have hChange : Change sign m .clear _ := .failed hHere
            simp only [Option.isSome_none, Bool.false_eq_true, if_false, fail]
            split
            next hMany => simpa only [if_pos hMany] using hChange
            next hFew => simpa only [if_neg hFew] using hChange
      · exact .stay m _
  | isSticky =>
      rw [step]
      split
      next held hHere => exact .sticky hHere
      · exact .stay m _

end Manager

end Relay
