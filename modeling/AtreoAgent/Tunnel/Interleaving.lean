import AtreoAgent.Machine.Run
import AtreoAgent.Tunnel.Applied
import AtreoAgent.Tunnel.Sample

/-! The liveness watch beside the message handlers. Messages are handled one at a time,
but the watch is a goroutine of its own: it decides under its lock and drops the peers
one by one after it released it. Between two of its steps a handler may move. -/
namespace Tunnel

open Codec Json Atreolink WireGuard Machine

deriving instance DecidableEq for Application

/-- Where the handler of device states is. -/
inductive HandlerPhase where
  | idle
  /-- The access list is replaced and some peer operations are left. -/
  | applying (application : Application)
  /-- The generation is recorded and the sign of life is not. -/
  | marking
  deriving DecidableEq

/-- Where the liveness watch is. -/
inductive WatcherPhase where
  | idle
  /-- Fail-closed is set and the access list not yet read. -/
  | tripped
  | dropping (keys : List String)
  deriving DecidableEq

structure Interleaved where
  agent : Agent
  handler : HandlerPhase
  watcher : WatcherPhase
  /-- Whether a device state has been applied. -/
  applied : Bool

inductive Move where
  /-- Everything up to the replacement of the access list. The watch reads none of what
  changes until then, except the access list. -/
  | deviceState (now : Time) (msg : TunnelMessage)
  /-- The next step of the apply. -/
  | apply (now : Time) (exec : List String → Bool)
  | heartbeatAck (now : Time) (msg : TunnelMessage)
  /-- The part of `checkLiveness` under the lock. -/
  | decide (now : Time)
  /-- The next step of `dropAllPeers`. -/
  | drop

def Agent.failClosed (agent : Agent) : Bool := agent.live.any (·.failClosed)

namespace Interleaved

def start (agent : Agent) : Interleaved := ⟨agent, .idle, .idle, false⟩

def beginApply (s : Interleaved) : Agent × Begun → Interleaved
  | (agent, .applying application) =>
      { s with agent := agent, handler := .applying application }
  | (agent, _) => { s with agent := agent }

def applyNext (env : Env) (now : Time) (exec : List String → Bool) (s : Interleaved) : Interleaved :=
  match s.handler with
  | .idle => s
  | .applying application =>
      match application.ops with
      | op :: ops =>
          { s with
            agent := s.agent.perform env exec op
            handler := .applying { application with ops := ops } }
      | [] =>
          { s with
            agent :=
              { s.agent with
                store := s.agent.store.setAppliedGeneration application.generation application.now }
            handler := .marking }
  | .marking =>
      { s with agent := s.agent.markLiveness now true, handler := .idle, applied := true }

def dropNext (s : Interleaved) : Interleaved :=
  match s.watcher with
  | .idle => s
  | .tripped => { s with watcher := .dropping s.agent.dropKeys }
  | .dropping [] => { s with watcher := .idle }
  | .dropping (key :: keys) =>
      { s with
        agent := { s.agent with peers := removePeer s.agent.peers key }
        watcher := .dropping keys }

/-- A handler or the watch only starts when it is idle; otherwise the move waits. -/
def step (env : Env) (s : Interleaved) : Move → Interleaved
  | .deviceState now msg =>
      if s.handler = .idle then s.beginApply (s.agent.beginDeviceState env now msg) else s
  | .apply now exec => s.applyNext env now exec
  | .heartbeatAck now msg =>
      if s.handler = .idle then { s with agent := (s.agent.handleHeartbeatAck now msg).1 } else s
  | .decide now =>
      if s.watcher = .idle then
        { s with
          agent := { s.agent with live := some (s.agent.decideLiveness now).1 }
          watcher := if (s.agent.decideLiveness now).2 then .tripped else .idle }
      else s
  | .drop => s.dropNext

/-- An apply that nothing interrupts. -/
theorem run_apply (env : Env) (now : Time) (exec : List String → Bool) (agent : Agent)
    (application : Application) (watcher : WatcherPhase) (applied : Bool) :
    run (step env) ⟨agent, .applying application, watcher, applied⟩
        (List.replicate (application.ops.length + 2) (.apply now exec)) =
      ⟨Agent.markLiveness
        { application.ops.foldl (Agent.perform env exec) agent with
          store := (application.ops.foldl (Agent.perform env exec) agent).store.setAppliedGeneration
            application.generation application.now } now true, .idle, watcher, true⟩ := by
  obtain ⟨ops, generation, at_, pending⟩ := application
  induction ops generalizing agent with
  | nil => rfl
  | cons op ops ih => exact ih (agent.perform env exec op)

/-- Without the watch the moves of a device state are `HandleDeviceState`. -/
theorem run_deviceState {env : Env} {now : Time} {agent next : Agent} {msg : TunnelMessage}
    {application : Application}
    (h : agent.beginDeviceState env now msg = (next, .applying application))
    (hNow : application.now = now) (exec : List String → Bool) :
    run (step env) (start agent)
        (.deviceState now msg :: List.replicate (application.ops.length + 2) (.apply now exec)) =
      ⟨(agent.handleDeviceState env now exec msg).1, .idle, .idle, true⟩ := by
  have hBegin : (start agent).step env (.deviceState now msg) =
      ⟨next, .applying application, .idle, false⟩ := by
    simp only [step, start, if_true, h]
    rfl
  rw [run_cons, hBegin, run_apply, Agent.handleDeviceState, h]
  simp only [completeApply, Agent.finishApply, hNow]

theorem run_dropping (env : Env) (keys : List String) (agent : Agent) (handler : HandlerPhase)
    (applied : Bool) :
    run (step env) ⟨agent, handler, .dropping keys, applied⟩
        (List.replicate (keys.length + 1) .drop) =
      ⟨{ agent with peers := keys.foldl removePeer agent.peers }, handler, .idle, applied⟩ := by
  induction keys generalizing agent with
  | nil => rfl
  | cons key keys ih => exact ih { agent with peers := removePeer agent.peers key }

theorem run_drop_idle (env : Env) (n : Nat) {s : Interleaved} (h : s.watcher = .idle) :
    run (step env) s (List.replicate n .drop) = s := by
  have hStep : s.step env .drop = s := by simp only [step, dropNext, h]
  induction n with
  | zero => rfl
  | succ n ih => rw [List.replicate_succ, run_cons, hStep, ih]

/-- Without the handlers the moves of the watch are `checkLiveness`. -/
theorem run_checkLiveness (env : Env) (now : Time) (agent : Agent) (handler : HandlerPhase)
    (applied : Bool) :
    run (step env) ⟨agent, handler, .idle, applied⟩
        (.decide now :: List.replicate (agent.dropKeys.length + 2) .drop) =
      ⟨agent.checkLiveness now, handler, .idle, applied⟩ := by
  rw [run_cons]
  cases hTrip : (agent.decideLiveness now).2 with
  | false =>
      have hStep : step env ⟨agent, handler, .idle, applied⟩ (.decide now) =
          ⟨agent.checkLiveness now, handler, .idle, applied⟩ := by
        simp [step, Agent.checkLiveness, hTrip]
      rw [hStep, run_drop_idle env _ rfl]
  | true =>
      have hStep : step env ⟨agent, handler, .idle, applied⟩ (.decide now) =
          ⟨{ agent with live := some (agent.decideLiveness now).1 }, handler, .tripped, applied⟩ := by
        simp [step, hTrip]
      rw [hStep, List.replicate_succ, run_cons]
      refine (run_dropping env agent.dropKeys _ handler applied).trans ?_
      simp only [Agent.checkLiveness, hTrip, if_true]
      rfl

end Interleaved

/-- Every client of a member that is not suspended has its peer. -/
def Agent.AllInstalled (agent : Agent) : Prop :=
  ∀ m ∈ agent.store.members, m.status ≠ "suspended" → ∀ c ∈ m.clients, c.wgPublicKey ∈ agent.peers

instance (agent : Agent) : Decidable agent.AllInstalled :=
  inferInstanceAs (Decidable (∀ m ∈ agent.store.members, _))

theorem failClosed_decideLiveness (agent : Agent) (now : Time) :
    (agent.decideLiveness now).1.failClosed = (agent.failClosed || (agent.decideLiveness now).2) := by
  have hLive : (agent.liveness now).failClosed = agent.failClosed := by
    unfold Agent.liveness Agent.failClosed
    cases agent.live <;> rfl
  unfold Agent.decideLiveness
  dsimp only
  split
  next hClosed => simp [← hLive, hClosed]
  next hOpen =>
    rw [← hLive, Bool.eq_false_of_not_eq_true hOpen, Bool.false_or]
    split
    · split <;> simp_all
    · rfl

/-- The peer operations and the liveness state do not meet. -/
theorem foldl_perform_live (env : Env) (exec : List String → Bool) (ops : List PeerOp)
    (agent : Agent) (live : Option LivenessState) :
    ops.foldl (Agent.perform env exec) { agent with live := live } =
      { ops.foldl (Agent.perform env exec) agent with live := live } := by
  induction ops generalizing agent with
  | nil => rfl
  | cons op ops ih =>
      have hStep : Agent.perform env exec { agent with live := live } op =
          { agent.perform env exec op with live := live } := by
        cases op with
        | prune key => rfl
        | drop key => rfl
        | install key ip =>
            simp only [Agent.perform]
            split <;> rfl
      rw [List.foldl_cons, hStep, ih, List.foldl_cons]

theorem failClosed_handleHeartbeatAck (agent : Agent) (now : Time) (msg : TunnelMessage)
    (h : heartbeatGeneration msg = some agent.store.generation → agent.failClosed = false) :
    (agent.handleHeartbeatAck now msg).1.failClosed = agent.failClosed := by
  unfold Agent.handleHeartbeatAck
  split
  · rfl
  next generation hGeneration =>
    dsimp only
    split
    next hSame =>
      rw [h (hSame ▸ hGeneration)]
      rfl
    · rfl

namespace Interleaved

/-- At rest and not failed closed, the applied state is served. -/
def Serving (s : Interleaved) : Prop :=
  s.handler = .idle → s.watcher = .idle → s.applied = true → s.agent.failClosed = false →
    s.agent.AllInstalled

instance (s : Interleaved) : Decidable s.Serving :=
  inferInstanceAs (Decidable (_ = _ → _ = _ → _ = _ → _ = _ → s.agent.AllInstalled))

/-- The commands succeed; a device state that passes its checks has WireGuard keys that
`AddPeer` accepts, none of them with two members, and the watch is not dropping peers; the
watch does not trip during an apply; the applied generation is not confirmed while the
agent has failed closed. -/
def Undisturbed (env : Env) (s : Interleaved) : Move → Prop
  | .deviceState now msg => ∀ st verified, decodeDeviceState env msg = some st →
      s.agent.checkState env now st = .ok (some verified) →
        s.watcher = .idle ∧ KeysApart st ∧ ∀ key ∈ registeredKeys st, validateWGPublicKey key = true
  | .apply _ exec => ∀ command, exec command = true
  | .heartbeatAck _ msg =>
      heartbeatGeneration msg = some s.agent.store.generation → s.agent.failClosed = false
  | .decide now => (s.agent.decideLiveness now).2 = true → s.handler = .idle
  | .drop => True

/-- What an undisturbed run keeps. -/
structure Kept (env : Env) (s : Interleaved) : Prop where
  sound : s.agent.allocator.Sound env.subnet
  /-- Peers are dropped only while the agent has failed closed and nothing is applied. -/
  closing : s.watcher ≠ .idle → s.agent.failClosed = true ∧ s.handler = .idle
  applying : ∀ application, s.handler = .applying application →
    (application.ops.foldl (Agent.perform env fun _ => true) s.agent).AllInstalled
  marking : s.handler = .marking → s.agent.AllInstalled
  serving : s.Serving

variable {env : Env} {s : Interleaved}

theorem kept_start {agent : Agent} (h : agent.allocator.Sound env.subnet) : Kept env (start agent) where
  sound := h
  closing hBusy := absurd rfl hBusy
  applying _ hHandler := by cases hHandler
  marking hHandler := by cases hHandler
  serving _ _ hApplied := by cases hApplied

theorem kept_of_applying {application : Application} (hSound : s.agent.allocator.Sound env.subnet)
    (hQuiet : s.watcher = .idle) (hHandler : s.handler = .applying application)
    (hInstalls : (application.ops.foldl (Agent.perform env fun _ => true) s.agent).AllInstalled) :
    Kept env s where
  sound := hSound
  closing hBusy := absurd hQuiet hBusy
  applying other hOther := by
    cases hHandler.symm.trans hOther
    exact hInstalls
  marking hOther := by cases hHandler.symm.trans hOther
  serving hOther := by cases hHandler.symm.trans hOther

variable {now : Time} {msg : TunnelMessage}

/-- An accepted state installs its clients, whatever the watch did before. -/
theorem kept_accepted (h : Kept env s) (a : Accepted env now s.agent msg)
    (hQuiet : s.watcher = .idle) (hKeys : KeysApart a.st)
    (hValid : ∀ key ∈ registeredKeys a.st, validateWGPublicKey key = true) :
    Kept env { s with agent := a.replaced, handler := .applying a.application } := by
  have hSound := a.sound_binding h.sound
  refine kept_of_applying hSound hQuiet rfl fun m hm hStatus c hc => ?_
  rw [foldl_perform_store] at hm
  have hRow : m ∈ a.members := a.store_members.1 ▸ hm
  have hListed : c.wgPublicKey ∈ registeredKeys a.st :=
    a.clientKeys_members ▸ Acl.mem_clientKeys.mpr ⟨m, hRow, c, hc, rfl⟩
  exact Finmap.lookup_isSome.mp (a.installed_of_active hSound hKeys (fun _ => rfl) a.replaced hRow
    hStatus hc (hValid _ hListed))

theorem kept_deviceState (h : Kept env s)
    (hUndisturbed : s.Undisturbed env (.deviceState now msg)) :
    Kept env (s.step env (.deviceState now msg)) := by
  rw [step]
  split
  next hIdle =>
    rcases beginDeviceState_cases env now s.agent msg with
      ⟨hBegin | ⟨e, hBegin⟩, _⟩ | ⟨c, e, hBegin, _⟩ | ⟨a, hBegin⟩ <;> rw [hBegin]
    · exact h
    · exact h
    · -- Only the allocator has changed.
      refine ⟨c.sound_binding h.sound, h.closing, fun application hHandler => ?_, h.marking, h.serving⟩
      cases hIdle.symm.trans hHandler
    · obtain ⟨hQuiet, hKeys, hValid⟩ := hUndisturbed a.st a.verified a.decodes a.check_eq
      exact kept_accepted h a hQuiet hKeys hValid
  · exact h

theorem kept_apply {exec : List String → Bool} (h : Kept env s)
    (hExec : ∀ command, exec command = true) : Kept env (s.step env (.apply now exec)) := by
  obtain rfl : exec = fun _ => true := funext hExec
  have hQuiet : s.handler ≠ .idle → s.watcher = .idle := fun hBusy =>
    Decidable.byContradiction fun hNot => hBusy (h.closing hNot).2
  rw [step, applyNext]
  split
  · exact h
  next application hHandler =>
    have hInstalls := h.applying application hHandler
    have hWatcher := hQuiet (by simp [hHandler])
    split <;> rename_i hOps <;> rw [hOps] at hInstalls
    next op ops => exact kept_of_applying ((evolves_perform _ op).sound h.sound) hWatcher rfl hInstalls
    next => exact
      { sound := h.sound
        closing := fun hBusy => absurd hWatcher hBusy
        applying := fun _ hNext => by cases hNext
        marking := fun _ => hInstalls
        serving := fun hNext => by cases hNext }
  next hHandler =>
    have hWatcher := hQuiet (by simp [hHandler])
    exact
      { sound := h.sound
        closing := fun hBusy => absurd hWatcher hBusy
        applying := fun _ hNext => by cases hNext
        marking := fun hNext => by cases hNext
        serving := fun _ _ _ _ => h.marking hHandler }

theorem kept_decide (h : Kept env s) (hUndisturbed : s.Undisturbed env (.decide now)) :
    Kept env (s.step env (.decide now)) := by
  rw [step]
  split
  next hQuiet =>
    have hClosed : Agent.failClosed { s.agent with live := some (s.agent.decideLiveness now).1 } =
        (s.agent.failClosed || (s.agent.decideLiveness now).2) :=
      failClosed_decideLiveness s.agent now
    refine ⟨h.sound, fun hBusy => ?_, fun application hHandler => ?_, h.marking,
      fun hIdle _ hApplied hOpen => ?_⟩
    · cases hTrip : (s.agent.decideLiveness now).2 with
      | false => simp [hTrip] at hBusy
      | true => exact ⟨by rw [hClosed, hTrip, Bool.or_true], hUndisturbed hTrip⟩
    · have hInstalls := h.applying application hHandler
      rw [foldl_perform_live]
      exact hInstalls
    · rw [hClosed, Bool.or_eq_false_iff] at hOpen
      exact h.serving hIdle hQuiet hApplied hOpen.1
  · exact h

theorem kept_heartbeatAck (h : Kept env s)
    (hUndisturbed : s.Undisturbed env (.heartbeatAck now msg)) :
    Kept env (s.step env (.heartbeatAck now msg)) := by
  rw [step]
  split
  next hIdle =>
    have hClosed := failClosed_handleHeartbeatAck s.agent now msg hUndisturbed
    obtain ⟨live, hState⟩ := handleHeartbeatAck_state now s.agent msg
    rw [hState] at hClosed ⊢
    refine ⟨h.sound, fun hBusy => ?_, fun _ hHandler => ?_, h.marking, fun _ hQuiet hApplied hOpen => ?_⟩
    · exact ⟨hClosed.trans (h.closing hBusy).1, hIdle⟩
    · cases hIdle.symm.trans hHandler
    · exact h.serving hIdle hQuiet hApplied (hClosed.symm.trans hOpen)
  · exact h

theorem kept_drop (h : Kept env s) : Kept env (s.step env .drop) := by
  rw [step, dropNext]
  split
  · exact h
  all_goals
    rename_i hWatcher
    obtain ⟨hClosed, hIdle⟩ := h.closing (by simp [hWatcher])
    refine ⟨h.sound, fun _ => ⟨hClosed, hIdle⟩, fun _ hHandler => ?_, fun hHandler => ?_,
      fun _ _ _ hOpen => ?_⟩
    · cases hIdle.symm.trans hHandler
    · cases hIdle.symm.trans hHandler
    · cases hClosed.symm.trans hOpen

theorem kept_step (h : Kept env s) {move : Move} (hUndisturbed : s.Undisturbed env move) :
    Kept env (s.step env move) := by
  cases move with
  | deviceState now msg => exact kept_deviceState h hUndisturbed
  | apply now exec => exact kept_apply h hUndisturbed
  | heartbeatAck now msg => exact kept_heartbeatAck h hUndisturbed
  | decide now => exact kept_decide h hUndisturbed
  | drop => exact kept_drop h

/-- In every interleaving whose moves are undisturbed, an agent that is at rest, has
applied a state and has not failed closed serves every client. -/
theorem recovery_restores_service (env : Env) (agent : Agent) (moves : List Move)
    (hSound : agent.allocator.Sound env.subnet)
    (hMoves : Meets (step env) (Undisturbed env) (start agent) moves) :
    (run (step env) (start agent) moves).Serving :=
  (invariant_run (Kept env) (fun _ _ h hMove => kept_step h hMove) (kept_start hSound)
    hMoves).serving

/-- The owner with one client. -/
def servedState : DeviceState :=
  { deviceID := "d", generation := 1, members := [sampleOwner (sampleKey 1) [sampleWGKey 3]]
    apps := [] }

def servedEnv : Env := sampleEnv [servedState]

/-- The moves of an apply with one peer operation. -/
def servingMoves (now : Time) : List Move :=
  .deviceState now (sampleState servedState) :: .replicate 3 (.apply now fun _ => true)

/-- The agent that has just been paired with the owner of the state. -/
def servedAgent : Agent := .fresh servedEnv (some (sampleKey 1))

/-- The replacement of the access list by that of the state. -/
def installServed (now : Time) (agent : Agent) : Agent × Begun :=
  agent.install servedEnv now 1
    ⟨[], [sampleRow (sampleOwner (sampleKey 1) [sampleWGKey 3]) [] "active" [sampleWGKey 3]]⟩

/-- An apply of the state at rest, without decoding it. -/
theorem run_servingMoves (now : Time) (hIdle : s.handler = .idle)
    (hNewer : s.agent.store.generation ≤ 1)
    (hPin : s.agent.store.pinnedAdminPubKey = some (sampleKey 1)) :
    run (step servedEnv) s (servingMoves now) =
      run (step servedEnv) (s.beginApply (installServed now s.agent))
        (.replicate 3 (.apply now fun _ => true)) := by
  have hBegin : s.agent.beginState servedEnv now servedState = installServed now s.agent :=
    beginState_sample [servedState] now servedState s.agent rfl rfl hNewer hPin
      (.cons (verifyMember_sampleOwner ..) .nil)
  rw [servingMoves, run_cons, step, if_pos hIdle, Agent.beginDeviceState, servedEnv,
    decodeDeviceState_sample (reads_head servedState []), ← hBegin]
  rfl

theorem undisturbed_servingMoves (now : Time) (hQuiet : s.watcher = .idle) :
    Meets (step servedEnv) (Undisturbed servedEnv) s (servingMoves now) := by
  refine ⟨fun st verified hDecode _ => ?_, fun _ => rfl, fun _ => rfl, fun _ => rfl, trivial⟩
  have hState : servedState = st :=
    Option.some.inj ((decodeDeviceState_sample (reads_head servedState [])).symm.trans hDecode)
  rw [← hState]
  exact ⟨hQuiet, by decide +kernel, by decide +kernel⟩

/-- The server confirms generation one. -/
def confirmation : TunnelMessage :=
  { type := "acl:heartbeat:ack", correlationID := ""
    payload := (Doc.obj [("generation", .num (Number.ofInt 1))]).print true
    signerID := "", signature := "" }

/-- The watch trips more than thirty minutes later and drops the peer. -/
def lapse : List Move := [.decide 1801000000000, .drop, .drop, .drop]

/-- The state is applied and confirmed, the watch drops the peer, and the state is applied
again. -/
def recoveringMoves : List Move :=
  servingMoves 0 ++ ((.heartbeatAck 0 confirmation :: lapse) ++ servingMoves 1802000000000)

/-- The agent that serves its client. -/
def served : Interleaved :=
  run (step servedEnv) ((start servedAgent).beginApply (installServed 0 servedAgent))
    (.replicate 3 (.apply 0 fun _ => true))

theorem run_served (moves : List Move) :
    run (step servedEnv) (start servedAgent) (servingMoves 0 ++ moves) =
      run (step servedEnv) served moves := by
  rw [run_append, run_servingMoves 0 rfl (by decide) rfl, served]
  rfl

/-- The agent once its peer is dropped. -/
def lapsed : Interleaved :=
  run (step servedEnv) served (.heartbeatAck 0 confirmation :: lapse)

theorem undisturbed_recoveringMoves :
    Meets (step servedEnv) (Undisturbed servedEnv) (start servedAgent) recoveringMoves := by
  have hServed : run (step servedEnv) (start servedAgent) (servingMoves 0) = served := by
    rw [← List.append_nil (servingMoves 0), run_served, run_nil]
  have hOpen : served.agent.failClosed = false := by decide +kernel
  have hIdle : (served.step servedEnv (.heartbeatAck 0 confirmation)).handler = .idle := by
    decide +kernel
  have hQuiet : lapsed.watcher = .idle := by decide +kernel
  rw [recoveringMoves, meets_append, meets_append, hServed]
  exact ⟨undisturbed_servingMoves 0 rfl, ⟨fun _ => hOpen, fun _ => hIdle, trivial, trivial, trivial,
    trivial⟩, undisturbed_servingMoves _ hQuiet⟩

theorem served_state_is_served :
    lapsed.agent.failClosed = true ∧
    (run (step servedEnv) (start servedAgent) recoveringMoves).applied = true ∧
    (run (step servedEnv) (start servedAgent) recoveringMoves).agent.failClosed = false ∧
    (run (step servedEnv) (start servedAgent) recoveringMoves).Serving := by
  have hRun : run (step servedEnv) (start servedAgent) recoveringMoves =
      run (step servedEnv) (lapsed.beginApply (installServed 1802000000000 lapsed.agent))
        (.replicate 3 (.apply 1802000000000 fun _ => true)) := by
    rw [recoveringMoves, run_served, run_append]
    exact run_servingMoves _ (by decide +kernel) (by decide +kernel) (by decide +kernel)
  refine ⟨by decide +kernel, ?_, ?_, ?_⟩
  · rw [hRun]
    decide +kernel
  · rw [hRun]
    decide +kernel
  · have hMoves := undisturbed_recoveringMoves
    -- The moves stay a variable, so that the run is not evaluated here.
    generalize recoveringMoves = moves at hMoves ⊢
    exact recovery_restores_service servedEnv servedAgent moves (Allocator.sound_new _) hMoves

/-- The server confirms the applied generation after the peer is dropped. -/
def confirmedMoves : List Move :=
  servingMoves 0 ++ (lapse ++ [.heartbeatAck 1802000000000 confirmation])

/-- Nothing is in progress, the agent has not failed closed and its client has no peer. -/
theorem confirmed_agent_serves_nobody :
    ¬ (run (step servedEnv) (start servedAgent) confirmedMoves).Serving := by
  rw [confirmedMoves, run_served]
  decide +kernel

end Interleaved

end Tunnel
