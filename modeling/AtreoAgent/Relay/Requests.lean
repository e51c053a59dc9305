import AtreoAgent.Relay.Manager

/-! The requests for grants over any interleaving. Requests keep their distance, a move to another
relay is asked for only after failed sessions of which none counts twice, and an agent that does
not want the relay is silent. -/
namespace Relay.Manager

open Codec Machine

variable {sign : Bytes → String}

/-- When the last request was sent. -/
def lastSent : List Entry → Option Int
  | [] => none
  | .session _ _ :: earlier => lastSent earlier
  | .request _ _ sentAt :: _ => some sentAt

/-- The relay of the last session. -/
def lastHost : List Entry → Option String
  | [] => none
  | .session host _ :: _ => some host
  | .request _ _ _ :: earlier => lastHost earlier

/-- The failed sessions since the last one that came up and since the last request for a move. -/
def streak : List Entry → Nat
  | [] => 0
  | .session _ established :: earlier => if established then 0 else streak earlier + 1
  | .request failedHost _ _ :: earlier => if failedHost = "" then streak earlier else 0

/-- What may follow the earlier entries. -/
def Entry.Allowed : Entry → List Entry → Prop
  | .session _ _, _ => True
  | .request failedHost askedAt _, earlier =>
      if failedHost = "" then ∀ t, lastSent earlier = some t → t + grantReqMinInterval ≤ askedAt
      else relayFailoverThreshold ≤ streak earlier ∧ lastHost earlier = some failedHost

def Disciplined : List Entry → Prop
  | [] => True
  | e :: earlier => e.Allowed earlier ∧ Disciplined earlier

/-- A request for a move. -/
def Entry.isMove : Entry → Bool
  | .request failedHost _ _ => failedHost ≠ ""
  | .session _ _ => false

def Entry.isFailure : Entry → Bool
  | .session _ established => !established
  | .request _ _ _ => false

/-- No failed session counts for two requests. -/
theorem Disciplined.moves_le {trace : List Entry} (h : Disciplined trace) :
    relayFailoverThreshold * trace.countP Entry.isMove + streak trace ≤
      trace.countP Entry.isFailure := by
  induction trace with
  | nil => exact Nat.le_refl 0
  | cons e earlier ih =>
      have hEarlier := ih h.2
      have hAllowed := h.1
      simp only [relayFailoverThreshold, List.countP_cons] at hEarlier ⊢
      cases e with
      | session host established =>
          cases established <;> simp only [streak, Entry.isMove, Entry.isFailure] <;> simp <;> omega
      | request failedHost askedAt sentAt =>
          by_cases hHint : failedHost = ""
          · simpa [streak, hHint, Entry.isMove, Entry.isFailure] using hEarlier
          · rw [Entry.Allowed, if_neg hHint, relayFailoverThreshold] at hAllowed
            simp [streak, hHint, Entry.isMove, Entry.isFailure]
            omega

/-- The request that the loop is about to make is allowed. -/
def Loop.Entitled (trace : List Entry) (failures : Nat) : Loop → Prop
  | .requesting failedHost _ => failedHost ≠ "" → failures = 0 ∧
      relayFailoverThreshold ≤ streak trace ∧ lastHost trace = some failedHost
  | .sending failedHost askedAt _ =>
      (failedHost ≠ "" → failures = 0) ∧ ∀ sentAt, (Entry.request failedHost askedAt sentAt).Allowed trace
  | .unreachable held =>
      relayFailoverThreshold ≤ streak trace ∧ lastHost trace = some held.2.relayHost
  | _ => True

structure Orderly (m : Manager) : Prop where
  trace : Disciplined m.trace
  lastRequest : m.lastRequest = lastSent m.trace
  failures : m.failures ≤ streak m.trace
  place : m.loop.Entitled m.trace m.failures

theorem entitled_next (trace : List Entry) (failures : Nat) (next : Next) :
    next.loop.Entitled trace failures := by
  cases next <;> trivial

theorem entitled_examine (m : Manager) (now later : Int) (trace : List Entry) (failures : Nat) :
    (m.examine now later).Entitled trace failures := by
  rcases m.examine_cases now later with ⟨_, hTo⟩ | ⟨_, hTo⟩ <;> rw [hTo]
  · exact fun hHint => absurd rfl hHint
  · trivial

variable {m t : Manager}

/-- The loop moves and makes no entry. -/
theorem Orderly.move (h : m.Orderly)
    (hSame : t.trace = m.trace ∧ t.lastRequest = m.lastRequest ∧ t.failures = m.failures)
    (hPlace : t.loop.Entitled m.trace m.failures) : t.Orderly := by
  obtain ⟨hTrace, hLast, hFailures⟩ := hSame
  refine ⟨?_, ?_, ?_, ?_⟩
  · rw [hTrace]
    exact h.trace
  · rw [hTrace, hLast]
    exact h.lastRequest
  · rw [hTrace, hFailures]
    exact h.failures
  · rw [hTrace, hFailures]
    exact hPlace

/-- The check under the lock allows the request, whenever it will have been sent. -/
theorem Orderly.allowed (h : m.Orderly) {failedHost : String} {next : Next} {now : Int}
    (here : m.loop = .requesting failedHost next) (hAllowed : m.throttled failedHost now = false) :
    (Loop.sending failedHost now next).Entitled m.trace m.failures := by
  have hPlace := h.place
  rw [here] at hPlace
  refine ⟨fun hHint => (hPlace hHint).1, fun sentAt => ?_⟩
  rw [Entry.Allowed]
  split
  next hNone =>
    intro t ht
    rw [throttled, h.lastRequest, ht] at hAllowed
    simp only [hNone, decide_true, Option.any_some, Bool.true_and, decide_eq_false_iff_not] at hAllowed
    omega
  next hHint => exact (hPlace hHint).2

theorem Orderly.sent (h : m.Orderly) {failedHost : String} {askedAt now : Int} {next : Next}
    (here : m.loop = .sending failedHost askedAt next)
    (hTrace : t.trace = .request failedHost askedAt now :: m.trace)
    (hLast : t.lastRequest = some now) (hFailures : t.failures = m.failures)
    (hLoop : t.loop = next.loop) : t.Orderly := by
  have hPlace := h.place
  rw [here] at hPlace
  refine ⟨?_, ?_, ?_, ?_⟩
  · rw [hTrace]
    exact ⟨hPlace.2 now, h.trace⟩
  · rw [hTrace, hLast, lastSent]
  · rw [hTrace, hFailures, streak]
    split
    · exact h.failures
    next hHint => exact Nat.le_of_eq (hPlace.1 hHint)
  · rw [hLoop]
    exact entitled_next _ _ next

theorem Change.orderly {e : Event} (hChange : Change sign m e t) (h : m.Orderly) : t.Orderly := by
  have hPlace := h.place
  cases hChange with
  | stay | requester | keep | callWakes | wake | shutdown | grant | call =>
      exact ⟨h.trace, h.lastRequest, h.failures, h.place⟩
  | start | stop | wanted | ask | again | openSession | fails | comesUp | ends | leave =>
      exact h.move ⟨rfl, rfl, rfl⟩ trivial
  | answer here shouldRelay =>
      refine h.move ⟨rfl, rfl, rfl⟩ ?_
      cases shouldRelay <;> trivial
  | examine here now later => exact h.move ⟨rfl, rfl, rfl⟩ (entitled_examine m now later _ _)
  | skip here | unsent here => exact h.move ⟨rfl, rfl, rfl⟩ (entitled_next _ _ _)
  | request here allowed => exact h.move ⟨rfl, rfl, rfl⟩ (h.allowed here allowed)
  | sent here now => exact h.sent here rfl rfl rfl rfl
  | succeeded here => exact ⟨⟨trivial, h.trace⟩, h.lastRequest, Nat.zero_le _, trivial⟩
  | failed here =>
      refine ⟨⟨trivial, h.trace⟩, h.lastRequest, Nat.succ_le_succ h.failures, ?_⟩
      dsimp only
      split
      next hMany => exact ⟨Nat.le_trans hMany (Nat.succ_le_succ h.failures), rfl⟩
      · trivial
  | sticky here =>
      rw [here] at hPlace
      refine ⟨h.trace, h.lastRequest, Nat.zero_le _, ?_⟩
      dsimp only
      split
      · trivial
      · exact fun _ => ⟨rfl, hPlace⟩

/-- Two requests without a hint are thirty seconds apart, counted from the last request of any
kind. A request to be moved follows three failed sessions in a row, the last of them to the relay
it names, and there is at most one of them for three failed sessions. -/
theorem requests_disciplined (sign : Bytes → String) (enabled : Bool) (events : List Event) :
    Disciplined (run (step sign) (new enabled) events).trace ∧
      3 * (run (step sign) (new enabled) events).trace.countP Entry.isMove ≤
        (run (step sign) (new enabled) events).trace.countP Entry.isFailure := by
  have hNew : (new enabled).Orderly := ⟨trivial, rfl, Nat.le_refl 0, trivial⟩
  have hOrderly : (run (step sign) (new enabled) events).Orderly :=
    invariant_always Orderly (fun m e h => (change_step m e).orderly h) hNew events
  have hCount := hOrderly.trace.moves_le
  rw [relayFailoverThreshold] at hCount
  exact ⟨hOrderly.trace, by omega⟩

/-- The relay has not been wanted so far. -/
structure Silent (m : Manager) : Prop where
  loop : m.loop = .stopped ∨ m.loop = .top ∨ m.loop = .asking ∨ m.loop = .unwanted ∨ m.loop = .returned
  keepAlive : m.keepAlive = false
  endpoint : m.endpoint = ""
  trace : m.trace = []
  sessions : m.sessions = 0

/-- The loop stays where the relay is not used. -/
theorem Silent.move (h : m.Silent) {wake done started : Bool} {attempt : Nat} {l : Loop}
    (hLoop : l = .stopped ∨ l = .top ∨ l = .asking ∨ l = .unwanted ∨ l = .returned) :
    Silent { m with wake := wake, done := done, started := started, attempt := attempt, loop := l } :=
  ⟨hLoop, h.keepAlive, h.endpoint, h.trace, h.sessions⟩

theorem Change.silent {e : Event} (hChange : Change sign m e t) (h : m.Silent)
    (hKeep : e ≠ .setKeepAlive true) (hAnswer : e ≠ .answer true) : t.Silent := by
  have hLoop := h.loop
  cases hChange with
  | stay | requester | callWakes | wake | shutdown | grant | call =>
      exact ⟨h.loop, h.keepAlive, h.endpoint, h.trace, h.sessions⟩
  | keep keep =>
      refine ⟨h.loop, ?_, h.endpoint, h.trace, h.sessions⟩
      cases keep
      · rfl
      · exact absurd rfl hKeep
  | start | again => exact h.move (.inr (.inl rfl))
  | stop => exact h.move (.inr (.inr (.inr (.inr rfl))))
  | wanted here keep =>
      rw [h.keepAlive] at keep
      cases keep
  | ask => exact h.move (.inr (.inr (.inl rfl)))
  | answer here shouldRelay =>
      cases shouldRelay
      · exact h.move (.inr (.inr (.inr (.inl rfl))))
      · exact absurd rfl hAnswer
  | examine here | skip here | request here | sent here | unsent here | openSession here | fails here
  | comesUp here | ends here | leave here | succeeded here | failed here | sticky here =>
      rw [here] at hLoop
      simp at hLoop

/-- Whatever grants come in, an agent that does not want the relay asks for none, opens no session
and advertises no endpoint. -/
theorem silent_unless_wanted (sign : Bytes → String) (enabled : Bool) (events : List Event)
    (hKeep : .setKeepAlive true ∉ events) (hAnswer : .answer true ∉ events) :
    (run (step sign) (new enabled) events).trace = [] ∧
      (run (step sign) (new enabled) events).sessions = 0 ∧
      (run (step sign) (new enabled) events).endpoint = "" := by
  have hMeets : Meets (step sign) (fun _ e => e ≠ .setKeepAlive true ∧ e ≠ .answer true)
      (new enabled) events :=
    meets_of_forall fun e he _ =>
      ⟨fun h => hKeep (h ▸ he), fun h => hAnswer (h ▸ he)⟩
  have hSilent : (run (step sign) (new enabled) events).Silent :=
    invariant_run Silent (fun m e h hEvent => (change_step m e).silent h hEvent.1 hEvent.2)
      ⟨.inl rfl, rfl, rfl, rfl, rfl⟩ hMeets
  exact ⟨hSilent.trace, hSilent.sessions, hSilent.endpoint⟩

theorem silent_unless_wanted_sample :
    (run (step fun _ => "s") (new true)
      [.setRequester, .setGrant sampleSigned, .start, .check, .answer false, .call 0 false,
        .wait .wake, .check]).trace = [] :=
  (silent_unless_wanted (fun _ => "s") true _ (by decide) (by decide)).1

end Relay.Manager
