import AtreoAgent.Machine.Run
import AtreoAgent.Tunnel.Applied
import AtreoAgent.Tunnel.Sample

/-! Whether a suspended member has a tunnel. A device state drops the peers of the members
it suspends, but a provision does not look at the status of its member. -/
namespace Tunnel

open Codec Json Atreolink WireGuard Fallible Machine

/-- No peer has the key of a suspended member. Peers have keys that `AddPeer` accepts. -/
structure SuspendedApart (members : List MemberACLEntry) (peers : Peers) : Prop where
  apart : ∀ m ∈ members, m.status = "suspended" → ∀ c ∈ m.clients,
    peers.lookup c.wgPublicKey = none
  valid : ∀ key peer, peers.lookup key = some peer → validateWGPublicKey key = true

/-- In a device state no key is registered for two members. -/
def Input.KeysApart (env : Env) (input : Input) : Prop :=
  ∀ msg st, input.event = .deviceState msg → decodeDeviceState env msg = some st →
    Tunnel.KeysApart st

/-- A provision that passes its checks, with a key that `AddPeer` accepts, is for a member
with no suspended row. -/
def ProvisionsActive (env : Env) (agent : Agent) (input : Input) : Prop :=
  ∀ msg req, input.event = .provision msg →
    (agent.checkProvision env input.now msg).2 = .ok req →
    validateWGPublicKey req.clientKey = true →
    ∀ m ∈ agent.store.members, m.memberID = req.memberID → m.status ≠ "suspended"

variable {env : Env} {agent : Agent} {members : List MemberACLEntry} {peers : Peers}

/-- Rows with the status of an earlier row and no more records. -/
theorem SuspendedApart.of_rows (h : SuspendedApart members peers) {rows : List MemberACLEntry}
    (hRows : ∀ n ∈ rows, ∃ m ∈ members, n.status = m.status ∧ ∀ c ∈ n.clients, c ∈ m.clients) :
    SuspendedApart rows peers := by
  refine ⟨fun n hn hStatus c hc => ?_, h.valid⟩
  obtain ⟨m, hm, hSame, hRecords⟩ := hRows n hn
  exact h.apart m hm (hSame.symm.trans hStatus) c (hRecords c hc)

theorem SuspendedApart.fewerPeers (h : SuspendedApart members peers) {fewer : Peers}
    (hFewer : ∀ key peer, fewer.lookup key = some peer → peers.lookup key = some peer) :
    SuspendedApart members fewer := by
  refine ⟨fun m hm hStatus c hc => ?_, fun key peer hPeer => h.valid key peer (hFewer key peer hPeer)⟩
  cases hPeer : fewer.lookup c.wgPublicKey with
  | none => rfl
  | some peer =>
      rw [← hFewer _ _ hPeer]
      exact h.apart m hm hStatus c hc

theorem valid_perform {exec : List String → Bool} (agent : Agent)
    (h : ∀ key peer, agent.peers.lookup key = some peer → validateWGPublicKey key = true)
    (ops : List PeerOp) :
    ∀ key peer, (ops.foldl (Agent.perform env exec) agent).peers.lookup key = some peer →
      validateWGPublicKey key = true := by
  intro key
  refine foldl_perform_peer (Q := fun peer => ∀ p, peer = some p → validateWGPublicKey key = true)
    ?_ (Or.inl (h key))
  intro op _ hKey current hCurrent p hp
  cases op with
  | prune k =>
      rw [← hKey] at hp
      cases (Finmap.lookup_erase _ _).symm.trans hp
  | drop k =>
      rw [← hKey] at hp
      cases (Finmap.lookup_erase _ _).symm.trans hp
  | install k ip =>
      rw [Agent.perform] at hp
      split at hp
      next peers hAdd => exact hKey ▸ (Server.addPeer_eq_ok hAdd).1
      next => exact hCurrent p hp

/-- An apply takes the peers of the members it suspends. -/
theorem Accepted.suspendedApart {now : Time} {msg : TunnelMessage} (a : Accepted env now agent msg)
    (hKeys : KeysApart a.st) (h : SuspendedApart agent.store.members agent.peers)
    (exec : List String → Bool) : SuspendedApart a.members (a.result exec).peers := by
  have hValid : ∀ key peer, (a.result exec).peers.lookup key = some peer →
      validateWGPublicKey key = true := valid_perform a.replaced h.valid a.application.ops
  refine ⟨fun m hm hStatus c hc => ?_, hValid⟩
  by_cases hEmpty : c.wgPublicKey = ""
  · cases hPeer : (a.result exec).peers.lookup c.wgPublicKey with
    | none => rfl
    | some peer =>
        have hBad := hValid _ peer hPeer
        simp [hEmpty, validateWGPublicKey] at hBad
  · exact a.no_peer_of_suspended hKeys exec hm hStatus hc hEmpty

/-- The rows after a provision that did not put its peer in place. -/
theorem SuspendedApart.stripped (h : SuspendedApart members peers) (memberID : String)
    (rec : ClientRecord) : SuspendedApart (members.map (Acl.Store.strip memberID rec)) peers := by
  refine h.of_rows fun n hn => ?_
  obtain ⟨m, hm, rfl⟩ := List.mem_map.mp hn
  by_cases hID : m.memberID = memberID
  · rw [Acl.Store.strip_same rec hID]
    exact ⟨m, hm, rfl, fun c hc => hc⟩
  · rw [Acl.Store.strip_other rec hID]
    exact ⟨m, hm, rfl, fun c hc => (List.mem_filter.mp hc).1⟩

theorem SuspendedApart.addClientPeer {exec : List String → Bool} (agent : Agent)
    {req : ProvisionRequest} (h : SuspendedApart agent.store.members agent.peers)
    (hActive : validateWGPublicKey req.clientKey = true →
      ∀ m ∈ agent.store.members, m.memberID = req.memberID → m.status ≠ "suspended") :
    SuspendedApart (agent.addClientPeer env exec req).1.store.members
      (agent.addClientPeer env exec req).1.peers := by
  have hCase := addClientPeer_cases env exec agent req
  generalize (agent.addClientPeer env exec req).1 = next at hCase ⊢
  cases hCase with
  | noAddress => exact h
  | unknownMember allocator ip store hAllocate hAdd =>
      rcases Acl.Store.addClient_eq_false hAdd with ⟨_, rfl⟩ | ⟨_, rfl⟩
      · exact h
      · exact h.stripped _ _
  | peerRefused allocator ip store e hAllocate hAdd hPeer =>
      refine h.of_rows fun n hn => ?_
      rw [Acl.Store.removeClient_addClient hAdd] at hn
      obtain ⟨m, hm, hStatus, hClients⟩ := Acl.Store.clients_of_rewriteClients hn
      refine ⟨m, hm, hStatus, fun c hc => ?_⟩
      rcases hClients c hc with hOld | hLeft
      · exact hOld
      · exact (List.mem_filter.mp hLeft).1
  | installed allocator ip store peers hAllocate hAdd hPeer =>
      obtain ⟨hValid, rfl⟩ := Server.addPeer_eq_ok hPeer
      obtain ⟨_, _, rfl⟩ := Acl.Store.addClient_eq_true hAdd
      constructor
      · intro n hn hSuspended c hc
        obtain ⟨m, hm, _, hStatus, hFrom⟩ := Acl.Store.mem_rewriteClients hn
        have hOther := fun hID => hActive hValid m hm hID (hStatus.symm.trans hSuspended)
        rcases hFrom with ⟨_, hClients⟩ | ⟨hID, _, _⟩ | ⟨hID, _⟩
        · -- The key of the new peer was taken from the other members.
          rw [hClients] at hc
          obtain ⟨hMem, hApart⟩ := List.mem_filter.mp hc
          have hNe : c.wgPublicKey ≠ req.clientKey := fun hSame => by
            simp [Acl.Store.keepsApart, hSame] at hApart
          exact (Finmap.lookup_insert_of_ne _ hNe).trans
            (h.apart m hm (hStatus.symm.trans hSuspended) c hMem)
        · exact absurd hID hOther
        · exact absurd hID hOther
      · intro key peer hKey
        by_cases hSame : key = req.clientKey
        · exact hSame ▸ hValid
        · exact h.valid key peer ((Finmap.lookup_insert_of_ne _ hSame).symm.trans hKey)

theorem suspendedApart_step {input : Input} (h : SuspendedApart agent.store.members agent.peers)
    (hKeys : input.KeysApart env) (hActive : ProvisionsActive env agent input) :
    SuspendedApart (agent.step env input).store.members (agent.step env input).peers := by
  have hEffect := step_effect env agent input
  generalize agent.step env input = next at hEffect ⊢
  cases hEffect with
  | quiet nonces live => exact h
  | unbound msg hEvent c => exact h
  | applied msg hEvent a =>
      rw [a.result_store]
      change SuspendedApart a.store.members _
      rw [a.store_members.1]
      exact a.suspendedApart (hKeys msg a.st hEvent a.decodes) h input.exec
  | provisioned msg hEvent nonces req hPasses =>
      exact SuspendedApart.addClientPeer { agent with nonces := nonces } h
        (hActive msg req hEvent hPasses)
  | dropped live hEvent hTrip => exact h.fewerPeers fun key peer hPeer => lookup_foldl_removePeer hPeer

/-- In every run from a fresh start whose device states register no key for two members
and whose provisions are for active members, no peer has a key of a suspended member. -/
theorem suspended_member_has_no_peer (env : Env) (pin : Option PublicKey) (inputs : List Input)
    (hInputs : Meets (Agent.step env)
      (fun agent input => input.KeysApart env ∧ ProvisionsActive env agent input)
      (Agent.fresh env pin) inputs) :
    ∀ m ∈ (run (Agent.step env) (Agent.fresh env pin) inputs).store.members,
      m.status = "suspended" → ∀ c ∈ m.clients,
        (run (Agent.step env) (Agent.fresh env pin) inputs).peers.lookup c.wgPublicKey =
          none := by
  have hInit : SuspendedApart (Agent.fresh env pin).store.members (Agent.fresh env pin).peers :=
    ⟨fun m hm => by simp [Agent.fresh, Acl.Store.new] at hm,
      fun key peer hPeer => by simp [Agent.fresh] at hPeer⟩
  have hEnd := invariant_run
    (fun agent : Agent => SuspendedApart agent.store.members agent.peers)
    (fun _ _ h hCond => suspendedApart_step h hCond.1 hCond.2) hInit hInputs
  exact hEnd.apart

/-- The owner without a client, and a suspended member with one. -/
def suspendedGuest : DeviceState :=
  { deviceID := "d", generation := 1
    members := [sampleOwner (sampleKey 1) [], sampleMember (sampleKey 2) [sampleWGKey 3]
      (some (sampleStatus (sampleKey 1) "b" "suspended"))]
    apps := [] }

/-- The state is applied and the owner provisions a key. -/
def suspendGuest : List Input :=
  .succeeding 0 (.deviceState (sampleState suspendedGuest)) ::
    sampleProvisioning (sampleKey 1) "a" (sampleWGKey 4) 0

theorem suspended_guest_has_no_peer :
    ((∃ m ∈ (sampleRun [suspendedGuest] suspendGuest).store.members,
      m.status = "suspended" ∧ m.clients.map (·.wgPublicKey) = [sampleWGKey 3]) ∧
    (sampleRun [suspendedGuest] suspendGuest).peers.keys = {sampleWGKey 4}) ∧
    ∀ m ∈ (sampleRun [suspendedGuest] suspendGuest).store.members, m.status = "suspended" →
      ∀ c ∈ m.clients,
        (sampleRun [suspendedGuest] suspendGuest).peers.lookup c.wgPublicKey = none := by
  have hBegin := beginState_sample [suspendedGuest] 0 suspendedGuest
    (sampleAgent (sampleEnv [suspendedGuest])) rfl rfl (by decide) rfl
    (.cons (verifyMember_sampleOwner ..) (.cons (verifyMember_suspendedMember ..) .nil))
  unfold sampleRun sampleAgent
  refine ⟨?_, suspended_member_has_no_peer (sampleEnv [suspendedGuest]) (some (sampleKey 1))
    suspendGuest ⟨⟨?_, ?_⟩, ⟨?_, ?_⟩, ⟨?_, ?_⟩, trivial⟩⟩
  · rw [suspendGuest, run_cons, step_sampleState (reads_head _ _), hBegin]
    decide +kernel
  · rintro msg st ⟨⟩ hDecode
    cases (decodeDeviceState_sample (reads_head suspendedGuest [])).symm.trans hDecode
    decide +kernel
  · rintro msg req ⟨⟩
  · rintro msg st ⟨⟩
  · rintro msg req ⟨⟩
  · rintro msg st ⟨⟩
  · -- The provision is for the owner, who is active.
    rintro msg req ⟨⟩
    rw [step_sampleState (reads_head _ _), hBegin]
    revert req
    refine forall_ok ?_
    decide +kernel

/-- A suspended member without a client. -/
def suspendedMember : DeviceState :=
  { deviceID := "d", generation := 1
    members := [sampleMember (sampleKey 2) [] (some (sampleStatus (sampleKey 1) "b" "suspended"))]
    apps := [] }

/-- The suspended member asks for a nonce and provisions a key. -/
def suspendedProvision : List Input :=
  .succeeding 0 (.deviceState (sampleState suspendedMember)) ::
    sampleProvisioning (sampleKey 2) "b" (sampleWGKey 3) 0

theorem suspended_member_provisions_peer :
    ∃ m ∈ (sampleRun [suspendedMember] suspendedProvision).store.members,
      m.status = "suspended" ∧ ∃ c ∈ m.clients,
        ((sampleRun [suspendedMember] suspendedProvision).peers.lookup c.wgPublicKey).isSome =
          true := by
  have hBegin := beginState_sample [suspendedMember] 0 suspendedMember
    (sampleAgent (sampleEnv [suspendedMember])) rfl rfl (by decide) rfl
    (.cons (verifyMember_suspendedMember ..) .nil)
  rw [sampleRun, suspendedProvision, run_cons, step_sampleState (reads_head _ _), hBegin]
  decide +kernel

end Tunnel
