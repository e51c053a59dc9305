import AtreoAgent.Machine.Run
import AtreoAgent.Tunnel.Peers
import AtreoAgent.Tunnel.Sample

/-! How long fail-closed lasts. When the liveness watch trips, the peers of the client
records are dropped. A provision that is handled before the next applied device state
does not ask whether the watch has tripped. -/
namespace Tunnel

open Codec Json Atreolink WireGuard Machine

/-- A device state is not applied. -/
def NotApplied (env : Env) (agent : Agent) (input : Input) : Prop :=
  ∀ msg pending, input.event = .deviceState msg →
    (agent.handleDeviceState env input.now input.exec msg).2 ≠ .applied pending

/-- A provision fails its checks or has a key that `AddPeer` refuses. -/
def ProvisionRefused (env : Env) (agent : Agent) (input : Input) : Prop :=
  ∀ msg req, input.event = .provision msg →
    (agent.checkProvision env input.now msg).2 = .ok req → validateWGPublicKey req.clientKey = false

variable {env : Env} {agent : Agent}

theorem peers_eq_empty {peers : Peers} (h : ∀ key, peers.lookup key = none) : peers = ∅ :=
  Finmap.ext_lookup fun key => by rw [h key, Finmap.lookup_empty]

theorem foldl_removePeer_empty (keys : List String) : keys.foldl removePeer ∅ = ∅ := by
  refine peers_eq_empty fun key => ?_
  cases hPeer : (keys.foldl removePeer ∅).lookup key with
  | none => rfl
  | some peer => cases (lookup_foldl_removePeer hPeer).symm.trans (Finmap.lookup_empty key)

theorem peers_addClientPeer {exec : List String → Bool} {req : ProvisionRequest}
    (hKey : validateWGPublicKey req.clientKey = false) :
    (agent.addClientPeer env exec req).1.peers = agent.peers := by
  have hCase := addClientPeer_cases env exec agent req
  generalize (agent.addClientPeer env exec req).1 = next at hCase ⊢
  cases hCase with
  | noAddress => rfl
  | unknownMember allocator ip store hAllocate hAdd => rfl
  | peerRefused allocator ip store e hAllocate hAdd hPeer => rfl
  | installed allocator ip store peers hAllocate hAdd hPeer =>
      rw [(Server.addPeer_eq_ok hPeer).1] at hKey
      cases hKey

theorem no_peers_step {input : Input} (h : agent.peers = ∅) (hState : NotApplied env agent input)
    (hProvision : ProvisionRefused env agent input) : (agent.step env input).peers = ∅ := by
  have hEffect := step_effect env agent input
  generalize agent.step env input = next at hEffect ⊢
  cases hEffect with
  | quiet nonces live => exact h
  | unbound msg hEvent c => exact h
  | applied msg hEvent a =>
      obtain ⟨pending, hApplied⟩ := a.applied input.exec
      exact absurd hApplied (hState msg pending hEvent)
  | provisioned msg hEvent nonces req hPasses =>
      rw [peers_addClientPeer (hProvision msg req hEvent hPasses)]
      exact h
  | dropped live hEvent hTrip =>
      change agent.dropKeys.foldl removePeer agent.peers = ∅
      rw [h, foldl_removePeer_empty]

/-- The watch drops every peer that belongs to a client record. -/
theorem no_peers_of_trip {tick : Input} (hTick : tick.event = .livenessTick)
    (hTrip : (agent.decideLiveness tick.now).2 = true)
    (hListed : ∀ key ∈ agent.peers.keys, key ∈ agent.dropKeys) :
    (agent.step env tick).peers = ∅ := by
  have hStep : (agent.step env tick).peers = agent.dropKeys.foldl removePeer agent.peers := by
    simp only [Agent.step, hTick, Agent.checkLiveness, hTrip, if_true]
    rfl
  rw [hStep]
  refine peers_eq_empty fun key => ?_
  by_cases hKey : key ∈ agent.peers.keys
  · exact lookup_foldl_removePeer_of_mem (hListed key hKey) agent.peers
  · cases hPeer : (agent.dropKeys.foldl removePeer agent.peers).lookup key with
    | none => rfl
    | some peer =>
        refine absurd (Finmap.mem_keys.mpr ?_) hKey
        exact Finmap.lookup_isSome.mp (by rw [lookup_foldl_removePeer hPeer]; rfl)

/-- Whatever led to the trip: if every peer then belongs to a client record, there are no
peers until a device state is applied or a provision passes its checks. -/
theorem fail_closed_stays_closed (env : Env) (agent : Agent) (tick : Input) (inputs : List Input)
    (hTick : tick.event = .livenessTick) (hTrip : (agent.decideLiveness tick.now).2 = true)
    (hListed : ∀ key ∈ agent.peers.keys, key ∈ agent.dropKeys)
    (hInputs : Meets (Agent.step env)
      (fun agent input => NotApplied env agent input ∧ ProvisionRefused env agent input)
      (agent.step env tick) inputs) :
    (run (Agent.step env) (agent.step env tick) inputs).peers = ∅ :=
  invariant_run (fun agent => agent.peers = ∅)
    (fun _ _ h hCond => no_peers_step h hCond.1 hCond.2)
    (no_peers_of_trip hTick hTrip hListed) hInputs

/-- The owner's row with one client. -/
def clientRow : MemberACLEntry :=
  { initialEntry (sampleOwner (sampleKey 1) []) with
    clients := [{ wgPublicKey := "k", tunnelIP := "100.64.0.2" }] }

/-- An agent with one client that has heard of the server at time zero. -/
def clientAgent : Agent where
  store := Acl.Store.rebuildIndexes { Acl.Store.new with members := [clientRow] }
  allocator := (Allocator.new (sampleEnv []).subnet).bind "k" "100.64.0.2"
  peers := Finmap.insert "k" ⟨"k", "100.64.0.2", ""⟩ ∅
  nonces := ∅
  live := some
    { bootAt := 0, appliedOnce := true, lastPositiveLiveness := some 0, failClosed := false }

/-- A tick more than thirty minutes later. -/
def lateTick : Input := .succeeding 1801000000000 .livenessTick

/-- The owner provisions a key that `AddPeer` refuses. -/
theorem client_agent_stays_closed :
    clientAgent.peers.keys = {"k"} ∧ (clientAgent.decideLiveness lateTick.now).2 = true ∧
      (run (Agent.step (sampleEnv [])) (clientAgent.step (sampleEnv []) lateTick)
        (sampleProvisioning (sampleKey 1) "a" "x" 1801 ++ [lateTick])).peers = ∅ := by
  refine ⟨by decide +kernel, by decide +kernel, fail_closed_stays_closed (sampleEnv []) clientAgent
    lateTick _ rfl (by decide +kernel) (by decide +kernel)
    ⟨⟨?_, ?_⟩, ⟨?_, ?_⟩, ⟨?_, ?_⟩, trivial⟩⟩
  · rintro msg pending ⟨⟩
  · rintro msg req ⟨⟩
  · rintro msg pending ⟨⟩
  · rintro msg req ⟨⟩
    revert req
    refine Fallible.forall_ok ?_
    decide +kernel
  · rintro msg pending ⟨⟩
  · rintro msg req ⟨⟩

/-- The owner without a client. -/
def ownerState : DeviceState :=
  { deviceID := "d", generation := 1, members := [sampleOwner (sampleKey 1) []], apps := [] }

/-- The state is applied, nothing is heard for more than thirty minutes, and the owner
provisions a client. -/
def closedProvision : List Input :=
  .succeeding 0 (.deviceState (sampleState ownerState)) :: lateTick ::
    sampleProvisioning (sampleKey 1) "a" (sampleWGKey 3) 1801

/-- The agent has failed closed and has a peer. -/
theorem provision_opens_closed_agent :
    (sampleRun [ownerState] closedProvision).live.map (·.failClosed) = some true ∧
      (sampleRun [ownerState] closedProvision).peers.keys = {sampleWGKey 3} := by
  rw [sampleRun, closedProvision, run_cons, step_sampleState (reads_head _ _)]
  decide +kernel

end Tunnel
