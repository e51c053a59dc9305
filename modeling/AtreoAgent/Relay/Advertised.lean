import AtreoAgent.Relay.Manager

/-! What the relay client advertises, over any interleaving of its goroutines. The endpoint is set
from the moment a session comes up until the loop has taken note of its end, and the loop
never waits on a grant or a setting that has been replaced. -/
namespace Relay.Manager

open Codec Machine

variable {sign : Bytes → String}

/-- The session that is up, or whose end the loop has not taken note of. -/
def Loop.live : Loop → Option (Held × ReadyPayload)
  | up _ held ready => some (held, ready)
  | leaving _ held (some ready) => some (held, ready)
  | ended held (some ready) => some (held, ready)
  | _ => none

def Loop.endpoint (l : Loop) : String := l.live.elim "" fun s => s.2.endpoint s.1.2

/-- The session that `runSession` is in. -/
def Loop.session : Loop → Option Nat
  | connecting session _ => some session
  | up session _ _ => some session
  | leaving session _ _ => some session
  | _ => none

@[simp] theorem live_next (next : Next) : next.loop.live = none := by cases next <;> rfl

theorem live_leaving (session : Nat) (held : Held) (ready : Option ReadyPayload) :
    (Loop.leaving session held ready).live = (Loop.ended held ready).live := by
  cases ready <;> rfl

@[simp] theorem session_next (next : Next) : next.loop.session = none := by cases next <;> rfl

/-- The shared fields are those of the place where the loop is. -/
structure Sound (m : Manager) : Prop where
  endpoint : m.endpoint = m.loop.endpoint
  session : m.cancelSession = m.loop.session
  idle : m.started = false → m.loop = .stopped
  enabled : m.loop ≠ .stopped → m.enabled = true

theorem sound_new (enabled : Bool) : (new enabled).Sound :=
  ⟨rfl, rfl, fun _ => rfl, fun h => absurd rfl h⟩

variable {m t : Manager} {e : Event}

/-- Once the loop runs only the two fields have to be looked at. -/
theorem Sound.of_running (h : m.Sound) (hRuns : m.loop ≠ .stopped)
    (hStarted : t.started = m.started) (hEnabled : t.enabled = m.enabled)
    (endpoint : t.endpoint = t.loop.endpoint) (session : t.cancelSession = t.loop.session) :
    t.Sound where
  endpoint := endpoint
  session := session
  idle hIdle := absurd (h.idle (hStarted ▸ hIdle)) hRuns
  enabled _ := hEnabled ▸ h.enabled hRuns

/-- The loop moves between two places without session. -/
theorem Sound.move (h : m.Sound) (hRuns : m.loop ≠ .stopped)
    (hFrom : m.loop.live = none ∧ m.loop.session = none)
    (hTo : t.loop.live = none ∧ t.loop.session = none)
    (hSame : t.started = m.started ∧ t.enabled = m.enabled ∧ t.endpoint = m.endpoint ∧
      t.cancelSession = m.cancelSession) : t.Sound := by
  obtain ⟨hStarted, hEnabled, hEndpoint, hSession⟩ := hSame
  refine h.of_running hRuns hStarted hEnabled ?_ ?_
  · rw [hEndpoint, h.endpoint, Loop.endpoint, Loop.endpoint, hFrom.1, hTo.1]
  · rw [hSession, h.session, hFrom.2, hTo.2]

theorem Change.sound (hChange : Change sign m e t) (h : m.Sound) : t.Sound := by
  cases hChange with
  | stay | requester | keep | callWakes | wake | shutdown | grant | call =>
      exact ⟨h.endpoint, h.session, h.idle, h.enabled⟩
  | start hEnabled hNew =>
      have hStopped := h.idle hNew
      refine ⟨?_, ?_, nofun, fun _ => hEnabled⟩
      · rw [h.endpoint, hStopped]
        rfl
      · rw [h.session, hStopped]
        rfl
  | stop hRuns _ hQuiet =>
      refine h.move hRuns ?_ ⟨rfl, rfl⟩ ⟨rfl, rfl, rfl, rfl⟩
      rcases hQuiet with h | h | ⟨_, h⟩ | ⟨_, h⟩ <;> rw [h] <;> exact ⟨rfl, rfl⟩
  | again here =>
      refine h.move ?_ ?_ ⟨rfl, rfl⟩ ⟨rfl, rfl, rfl, rfl⟩
      · rcases here with h | ⟨_, h⟩ | ⟨_, h⟩ <;> rw [h] <;> exact nofun
      · rcases here with h | ⟨_, h⟩ | ⟨_, h⟩ <;> rw [h] <;> exact ⟨rfl, rfl⟩
  | wanted here | ask here | request here =>
      refine h.move ?_ ?_ ⟨rfl, rfl⟩ ⟨rfl, rfl, rfl, rfl⟩ <;> rw [here]
      · exact nofun
      · exact ⟨rfl, rfl⟩
  | answer here shouldRelay =>
      refine h.move ?_ ?_ ?_ ⟨rfl, rfl, rfl, rfl⟩
      · rw [here]
        exact nofun
      · rw [here]
        exact ⟨rfl, rfl⟩
      · cases shouldRelay <;> exact ⟨rfl, rfl⟩
  | examine here now later =>
      refine h.move ?_ ?_ ?_ ⟨rfl, rfl, rfl, rfl⟩
      · rw [here]
        exact nofun
      · rw [here]
        exact ⟨rfl, rfl⟩
      · rcases m.examine_cases now later with ⟨_, hTo⟩ | ⟨_, hTo⟩ <;> rw [hTo] <;> exact ⟨rfl, rfl⟩
  | skip here | unsent here | sent here =>
      refine h.move ?_ ?_ ⟨live_next _, session_next _⟩ ⟨rfl, rfl, rfl, rfl⟩ <;> rw [here]
      · exact nofun
      · exact ⟨rfl, rfl⟩
  | openSession here | fails here | comesUp here | ends here | succeeded here =>
      exact h.of_running (by rw [here]; exact nofun) rfl rfl
        (by simp [h.endpoint, here, Loop.endpoint, Loop.live]) (by simp [h.session, here, Loop.session])
  | leave here =>
      refine h.of_running (by rw [here]; exact nofun) rfl rfl ?_ rfl
      rw [h.endpoint, here]
      exact congrArg (Option.elim · "" _) (live_leaving _ _ _)
  | failed here | sticky here =>
      refine h.of_running (by rw [here]; exact nofun) rfl rfl ?_ ?_
      · simp only [h.endpoint, here]
        split <;> rfl
      · simp only [h.session, here]
        split <;> rfl

theorem sound_run (enabled : Bool) (events : List Event) :
    (run (step sign) (new enabled) events).Sound :=
  invariant_always Sound (fun m e h => (change_step m e).sound h) (sound_new enabled) events

theorem enabled_run (enabled : Bool) (events : List Event) :
    (run (step sign) (new enabled) events).enabled = enabled := by
  refine invariant_always (fun m : Manager => m.enabled = enabled)
    (fun m e h => ?_) rfl events
  have hChange : Change sign m e (m.step sign e) := change_step m e
  generalize m.step sign e = t at hChange
  cases hChange <;> exact h

theorem Change.live (hChange : Change sign m e t) {held : Held} {ready : ReadyPayload}
    (h : t.loop.live = some (held, ready)) :
    m.loop.live = some (held, ready) ∨ ∃ c session, e = .connect c ∧
      m.loop = .connecting session held ∧ c.open sign held.1 held.2 = some ready := by
  cases hChange with
  | stay | requester | keep | callWakes | wake | shutdown | grant | call => exact .inl h
  | start | stop | wanted | ask | request | again | openSession | fails | succeeded => cases h
  | answer here shouldRelay => cases shouldRelay <;> cases h
  | examine here now later =>
      rcases m.examine_cases now later with ⟨_, hTo⟩ | ⟨_, hTo⟩ <;> rw [hTo] at h <;> cases h
  | skip here | unsent here | sent here =>
      rw [live_next] at h
      cases h
  | comesUp here opens =>
      cases h
      exact .inr ⟨_, _, rfl, here, opens⟩
  | ends here =>
      rw [here]
      exact .inl h
  | leave here =>
      rw [here, live_leaving]
      exact .inl h
  | failed here | sticky here =>
      dsimp only at h
      split at h <;> cases h

/-- The grant the loop has read in this round, if it has read it. -/
def Next.seen : Next → Option Held
  | await seen => seen
  | session held | pause held => some held

def Loop.seen : Loop → Option (Option Held)
  | stopped | top | asking | unwanted | examining | returned => none
  | requesting _ next | sending _ _ next => some next.seen
  | awaiting seen => some seen
  | opening held | connecting _ held | up _ held _ | leaving _ held _ | ended held _
  | unreachable held | pausing held => some (some held)

@[simp] theorem seen_next (next : Next) : next.loop.seen = some next.seen := by cases next <;> rfl

@[simp] theorem seen_examine (m : Manager) (now later : Int) :
    (m.examine now later).seen = some m.grant := by
  unfold examine
  split
  next hGrant =>
    rw [hGrant]
    rfl
  next held hGrant =>
    rw [hGrant]
    split_ifs <;> rfl

/-- A grant that the loop has before it is the one it had, or the current one. -/
theorem Change.seen (hChange : Change sign m e t) {seen : Option Held}
    (h : t.loop.seen = some seen) :
    m.loop.seen = some seen ∨ m.loop = .examining ∧ seen = m.grant := by
  cases hChange with
  | stay | requester | keep | callWakes | wake | shutdown | grant | call => exact .inl h
  | start | stop | wanted | ask | again => cases h
  | answer here shouldRelay => cases shouldRelay <;> cases h
  | examine here now later =>
      rw [seen_examine] at h
      cases h
      exact .inr ⟨here, rfl⟩
  | skip here | unsent here | sent here =>
      rw [seen_next] at h
      rw [here]
      exact .inl h
  | request here | openSession here | fails here | comesUp here | ends here | leave here
  | succeeded here =>
      rw [here]
      exact .inl h
  | failed here | sticky here =>
      rw [here]
      dsimp only at h
      split at h <;> exact .inl h

/-- The manager or its loop has the grant. -/
def Holds (m : Manager) (held : Held) : Prop := m.grant = some held ∨ m.loop.seen = some (some held)

theorem Change.holds (hChange : Change sign m e t) {held : Held} (h : t.Holds held) :
    m.Holds held ∨ e = .setGrant held.1 ∧ held.1.parse = .ok held.2 := by
  rcases h with hGrant | hSeen
  · cases hChange with
    | grant parses =>
        cases hGrant
        exact .inr ⟨rfl, parses⟩
    | _ => exact .inl (.inl hGrant)
  · rcases hChange.seen hSeen with hSeen | ⟨_, hGrant⟩
    · exact .inl (.inr hSeen)
    · exact .inl (.inl hGrant.symm)

/-- Where an endpoint comes from that is advertised after the first events: a grant was set, a
connection came up under it with this endpoint, and its session has been there ever since. -/
def SessionSince (sign : Bytes → String) (start : Manager) (events : List Event) (now : Nat)
    (endpoint : String) : Prop :=
  ∃ (held : Held) (ready : ReadyPayload) (c : Connection) (granted connected : Nat),
    granted < connected ∧ connected < now ∧
      events[granted]? = some (.setGrant held.1) ∧ held.1.parse = .ok held.2 ∧
      events[connected]? = some (.connect c) ∧ c.open sign held.1 held.2 = some ready ∧
      endpoint = ready.endpoint held.2 ∧
      ∀ k, connected < k → k ≤ now →
        (run (step sign) start (events.take k)).loop.live = some (held, ready)

/-- What `Endpoint` returns as usable was announced by the relay of the session that the loop is in,
on an agent with the relay enabled, and the relay was wanted during the call. -/
theorem endpoint_of_live_session (sign : Bytes → String) (enabled : Bool) (events : List Event)
    {first later : Nat} {shouldRelay : Bool} {endpoint : String}
    (h : readEndpoint (run (step sign) (new enabled) (events.take first))
      (run (step sign) (new enabled) (events.take later)) shouldRelay = (endpoint, true)) :
    enabled = true ∧
      ((run (step sign) (new enabled) (events.take later)).keepAlive = true ∨
        shouldRelay = true) ∧
      SessionSince sign (new enabled) events first endpoint := by
  obtain ⟨hEndpoint, hUsable⟩ := Prod.mk.inj h
  simp only [Bool.and_eq_true, decide_eq_true_eq, relayWanted, Bool.or_eq_true] at hUsable
  obtain ⟨⟨hSome, hEnabled⟩, hWanted⟩ := hUsable
  rw [enabled_run] at hEnabled
  refine ⟨hEnabled, hWanted, ?_⟩
  rw [(sound_run enabled _).endpoint, Loop.endpoint] at hSome hEndpoint
  cases hLive : (run (step sign) (new enabled) (events.take first)).loop.live with
  | none =>
      rw [hLive] at hSome
      exact absurd rfl hSome
  | some live =>
      obtain ⟨held, ready⟩ := live
      rw [hLive] at hEndpoint
      obtain ⟨n, hn, ⟨_, hConnect, ⟨c, session, rfl, hLoop, hOpens⟩⟩, hSince⟩ :=
        exists_last_cause (P := fun m : Manager => m.loop.live = some (held, ready))
          (fun m e => (change_step m e).live) (fun h => by cases h) hLive
      have hHolds : (run (step sign) (new enabled) (events.take n)).Holds held := by
        right
        rw [hLoop]
        rfl
      have hCause : ∀ m e held, (step sign m e).Holds held →
          m.Holds held ∨ e = .setGrant held.1 ∧ held.1.parse = .ok held.2 :=
        fun m e held => (change_step m e).holds
      obtain ⟨g, _, hg, _, hGrant, rfl, hParse⟩ :=
        exists_cause (m := 0) hCause hHolds (by rintro (h | h) <;> cases h) (Nat.zero_le n)
      exact ⟨held, ready, c, g, n, hg, hn, hGrant, hParse, hConnect, hOpens, hEndpoint.symm, hSince⟩

/-- A relay that accepts, with its clients on port 7. -/
def sampleConnection : Connection where
  dialled := true
  conversation :=
    { sampleConversation with
      ready := some ⟨"relay:ready", utf8 ("\x7b\"dataPort\":7,\"sessionToken\":\"" ++
        String.ofList (List.replicate 64 '0') ++ "\"\x7d")⟩ }
  resolved := true
  ingest := true

/-- The relay is wanted, and a session comes up. -/
def sampleEvents : List Event :=
  [.setGrant sampleSigned, .start, .check, .answer true, .examine 0 0, .openSession,
    .connect sampleConnection]

theorem endpoint_of_live_session_sample :
    SessionSince (fun _ => "s") (new true) sampleEvents 7 "r:7" := by
  have hRead : readEndpoint (run (step fun _ => "s") (new true) (sampleEvents.take 7))
      (run (step fun _ => "s") (new true) (sampleEvents.take 7)) true = ("r:7", true) := by
    decide +kernel
  exact (endpoint_of_live_session (fun _ => "s") true sampleEvents hRead).2.2

/-- The loop has found `keepAlive` not set in this round. -/
def Loop.unkept : Loop → Bool
  | asking | unwanted => true
  | _ => false

@[simp] theorem unkept_next (next : Next) : next.loop.unkept = false := by cases next <;> rfl

@[simp] theorem unkept_examine (m : Manager) (now later : Int) :
    (m.examine now later).unkept = false := by
  rcases m.examine_cases now later with ⟨_, hTo⟩ | ⟨_, hTo⟩ <;> rw [hTo] <;> rfl

theorem Change.unkept (hChange : Change sign m e t) (h : t.loop.unkept = true) :
    m.loop.unkept = true ∨ m.keepAlive = false := by
  cases hChange with
  | stay | requester | keep | callWakes | wake | shutdown | grant | call => exact .inl h
  | start | stop | wanted | request | again | openSession | fails | comesUp | ends | leave
  | succeeded => cases h
  | ask here keep => exact .inr keep
  | answer here => exact .inl (by rw [here]; rfl)
  | examine here now later =>
      rw [unkept_examine] at h
      cases h
  | skip here | unsent here | sent here =>
      rw [unkept_next] at h
      cases h
  | failed here | sticky here =>
      dsimp only at h
      split at h <;> cases h

/-- Nothing has changed behind the back of the loop, or it will be woken. -/
def Fresh (m : Manager) : Prop :=
  m.wake = true ∨ m.calls ≠ [] ∨
    (∀ seen, m.loop.seen = some seen → m.grant = seen) ∧
      (m.loop.unkept = true → m.keepAlive = false)

theorem Fresh.of_blank (hSeen : m.loop.seen = none) (hKept : m.loop.unkept = false) : m.Fresh := by
  refine .inr (.inr ⟨fun seen h => ?_, fun h => ?_⟩)
  · rw [hSeen] at h
    cases h
  · rw [hKept] at h
    cases h

/-- The loop moves on with what it has read. -/
theorem Fresh.move (h : m.Fresh) (hChange : Change sign m e t)
    (hSame : t.wake = m.wake ∧ t.calls = m.calls ∧ t.grant = m.grant ∧ t.keepAlive = m.keepAlive) :
    t.Fresh := by
  obtain ⟨hWake, hCalls, hGrant, hKept⟩ := hSame
  rcases h with h | h | ⟨hView, hUnkept⟩
  · exact .inl (hWake.trans h)
  · exact .inr (.inl (by rwa [hCalls]))
  · refine .inr (.inr ⟨fun seen hNow => ?_, fun hNow => ?_⟩)
    · rw [hGrant]
      rcases hChange.seen hNow with hOld | ⟨_, hRead⟩
      · exact hView seen hOld
      · exact hRead.symm
    · rw [hKept]
      rcases hChange.unkept hNow with hOld | hRead
      · exact hUnkept hOld
      · exact hRead

theorem Change.fresh (hChange : Change sign m e t) (h : m.Fresh) : t.Fresh := by
  have hMove := h.move hChange
  cases hChange with
  | grant | keep => exact .inr (.inl (by simp))
  | call present =>
      refine .inr (.inl fun hNone => ?_)
      rw [List.set_eq_nil_iff] at hNone
      rw [hNone] at present
      cases present
  | callWakes | wake => exact .inl rfl
  -- the token is gone, but at the top the loop has not read anything yet
  | again => exact .of_blank rfl rfl
  | _ => exact hMove ⟨rfl, rfl, rfl, rfl⟩

/-- Once every call has returned and the channel is empty, a loop that waits has seen what is
current: the relay is not kept alive if it waits until the relay is wanted, and it has used the
latest grant if it waits for another one or before the next session. -/
theorem waits_on_current (sign : Bytes → String) (enabled : Bool) (events : List Event)
    (hCalls : (run (step sign) (new enabled) events).calls = [])
    (hWake : (run (step sign) (new enabled) events).wake = false) :
    ((run (step sign) (new enabled) events).loop = .unwanted →
        (run (step sign) (new enabled) events).keepAlive = false) ∧
      (∀ seen, (run (step sign) (new enabled) events).loop = .awaiting seen →
        (run (step sign) (new enabled) events).grant = seen) ∧
      ∀ held, (run (step sign) (new enabled) events).loop = .pausing held →
        (run (step sign) (new enabled) events).grant = some held := by
  have hFresh : (run (step sign) (new enabled) events).Fresh :=
    invariant_always Fresh (fun m e h => (change_step m e).fresh h)
      (.of_blank rfl rfl) events
  rcases hFresh with h | h | ⟨hView, hUnkept⟩
  · rw [hWake] at h
    cases h
  · exact absurd hCalls h
  · refine ⟨fun hHere => hUnkept ?_, fun seen hHere => hView seen ?_, fun held hHere => hView _ ?_⟩
    · rw [hHere]
      rfl
    · rw [hHere]
      rfl
    · rw [hHere]
      rfl

/-- A session fails, the loop is woken by the grant that was set meanwhile, and fails again. -/
def sampleFailures : List Event :=
  let round := [.check, .answer true, .examine 0 0, .openSession,
    .connect { sampleConnection with dialled := false }, .leave, .clear]
  [.setGrant sampleSigned, .call 0 true, .start] ++ round ++ [.wait .wake] ++ round

theorem waits_on_current_sample :
    (run (step fun _ => "s") (new true) sampleFailures).grant.map Prod.fst =
      some sampleSigned := by
  have hHere : ∃ held, (run (step fun _ => "s") (new true) sampleFailures).loop =
      .pausing held ∧ held.1 = sampleSigned := by
    refine ⟨(sampleSigned, { sampleGrant with deviceID := "" }), ?_, rfl⟩
    decide +kernel
  obtain ⟨held, hPausing, hHeld⟩ := hHere
  rw [(waits_on_current (fun _ => "s") true sampleFailures (by decide +kernel)
    (by decide +kernel)).2.2 held hPausing, Option.map_some, hHeld]

end Relay.Manager
