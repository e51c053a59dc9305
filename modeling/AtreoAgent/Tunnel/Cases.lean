import AtreoAgent.Tunnel.Handlers

/-! What a step of the agent can do, stated once. A device state is refused, ignored,
or accepted with everything its apply computes; a provision that passes its checks
fails at one of its steps or installs a client. -/
namespace Tunnel

open Codec Json Atreolink WireGuard Fallible

/-- A device state that passed the verification phase. -/
structure Checked (env : Env) (now : Time) (agent : Agent) (msg : TunnelMessage) where
  st : DeviceState
  ownerPub : PublicKey
  verified : VerifiedState
  decodes : decodeDeviceState env msg = some st
  device : ¬ (st.deviceID ≠ "" ∧ st.deviceID ≠ env.deviceID)
  newer : agent.store.generation ≤ st.generation
  pinned : agent.store.pinnedAdminPubKey = some ownerPub
  verifies : verifyState env agent.store ownerPub now st = .ok verified

variable {env : Env} {msg : TunnelMessage} {agent : Agent} {now : Time} {st : DeviceState}
  {input : Input}

theorem exists_checked {verified : VerifiedState} (hDecode : decodeDeviceState env msg = some st)
    (h : agent.checkState env now st = .ok (some verified)) :
    ∃ c : Checked env now agent msg, c.st = st ∧ c.verified = verified := by
  unfold Agent.checkState at h
  split at h
  · cases h
  next hDevice =>
    split at h
    · cases h
    next hNewer =>
      split at h
      · cases h
      next owner hPin =>
        cases hVerify : verifyState env agent.store owner now st with
        | error e =>
            rw [hVerify] at h
            cases h
        | ok v =>
            rw [hVerify] at h
            cases h
            exact ⟨⟨st, owner, verified, hDecode, hDevice, Int.not_lt.mp hNewer, hPin, hVerify⟩,
              rfl, rfl⟩

theorem Checked.check_eq (c : Checked env now agent msg) :
    agent.checkState env now c.st = .ok (some c.verified) :=
  checkState_of_verifies c.device c.newer c.pinned c.verifies

instance {env : Env} {now : Time} {agent : Agent} {msg : TunnelMessage} :
    Subsingleton (Checked env now agent msg) := by
  constructor
  rintro ⟨st, owner, verified, hDecode, _, _, hPin, hVerify⟩ ⟨st', owner', verified', hDecode', _, _,
    hPin', hVerify'⟩
  cases hDecode.symm.trans hDecode'
  cases hPin.symm.trans hPin'
  cases hVerify.symm.trans hVerify'
  rfl

namespace Checked

variable {env : Env} {now : Time} {agent : Agent} {msg : TunnelMessage}
  (c : Checked env now agent msg)

/-- The addresses that leases restore. -/
def leases : List (String × String) := c.verified.members.flatMap (·.leases)

def entries : List MemberACLEntry := c.verified.members.map (·.entry)

/-- The outcome of the binding loop. -/
def binding : Allocator × Except DeviceStateError (List MemberACLEntry) :=
  bindMembers env.subnet c.leases agent.allocator c.entries

end Checked

/-- An accepted device state with what its apply computes. -/
structure Accepted (env : Env) (now : Time) (agent : Agent) (msg : TunnelMessage)
    extends Checked env now agent msg where
  bound : List MemberACLEntry
  store : Acl.Store
  removed : Acl.Removed
  binds : toChecked.binding.2 = .ok bound
  reconciles : agent.store.reconcile (deriveIPv6 env.server bound) verified.apps =
    .ok (store, removed)

namespace Accepted

variable {env : Env} {now : Time} {agent : Agent} {msg : TunnelMessage}
  (a : Accepted env now agent msg)

/-- The rows of the new access list. -/
def members : List MemberACLEntry := deriveIPv6 env.server a.bound

/-- The agent once the access list is replaced, before any peer changes. -/
def replaced : Agent := { agent with allocator := a.binding.1, store := a.store }

def application : Application :=
  { ops := peerOps a.removed.clientKeys a.members
    generation := a.st.generation
    now := now
    pending := a.verified.members.filterMap (·.pending) }

/-- The agent when the peers are done. -/
def performed (exec : List String → Bool) : Agent :=
  a.application.ops.foldl (Agent.perform env exec) a.replaced

def result (exec : List String → Bool) : Agent := (a.performed exec).finishApply a.application

end Accepted

instance {env : Env} {now : Time} {agent : Agent} {msg : TunnelMessage} :
    Subsingleton (Accepted env now agent msg) := by
  constructor
  rintro ⟨c, bound, store, removed, hBinds, hReconciles⟩ ⟨c', bound', store', removed', hBinds',
    hReconciles'⟩
  cases Subsingleton.elim c c'
  cases hBinds.symm.trans hBinds'
  cases hReconciles.symm.trans hReconciles'
  rfl

def DeviceStateResult.isApplied : DeviceStateResult → Bool
  | applied _ => true
  | _ => false

theorem DeviceStateResult.exists_applied {r : DeviceStateResult} (h : r.isApplied = true) :
    ∃ pending, r = .applied pending := by
  cases r with
  | applied pending => exact ⟨pending, rfl⟩
  | rejected e => cases h
  | ignored => cases h

/-- The outcome of the part of an apply that may still fail. -/
theorem install_cases (c : Checked env now agent msg) :
    (∃ e, agent.install env now c.st.generation c.verified =
      ({ agent with allocator := c.binding.1 }, .rejected e) ∧
      IsEmpty (Accepted env now agent msg)) ∨
    ∃ a : Accepted env now agent msg, a.toChecked = c ∧
      agent.install env now c.st.generation c.verified = (a.replaced, .applying a.application) := by
  unfold Agent.install
  dsimp only
  rcases hBind : bindMembers env.subnet (c.verified.members.flatMap (·.leases)) agent.allocator
    (c.verified.members.map (·.entry)) with ⟨allocator, e | bound⟩
  · have hFirst : c.binding.1 = allocator := congrArg Prod.fst hBind
    have hSecond : c.binding.2 = .error e := congrArg Prod.snd hBind
    refine Or.inl ⟨e, by rw [hBind, hFirst], ⟨fun a => ?_⟩⟩
    have hBinds := a.binds
    rw [Subsingleton.elim a.toChecked c, hSecond] at hBinds
    cases hBinds
  · have hFirst : c.binding.1 = allocator := congrArg Prod.fst hBind
    have hSecond : c.binding.2 = .ok bound := congrArg Prod.snd hBind
    rw [hBind]
    dsimp only
    cases hReconcile : agent.store.reconcile (deriveIPv6 env.server bound) c.verified.apps with
    | error e =>
        refine Or.inl ⟨.reconcile e, by rw [hFirst], ⟨fun a => ?_⟩⟩
        have hBinds := a.binds
        have hReconciles := a.reconciles
        rw [Subsingleton.elim a.toChecked c, hSecond] at hBinds
        rw [← Except.ok.inj hBinds, Subsingleton.elim a.toChecked c, hReconcile] at hReconciles
        cases hReconciles
    | ok r =>
        obtain ⟨store, removed⟩ := r
        refine Or.inr ⟨⟨c, bound, store, removed, hSecond, hReconcile⟩, rfl, ?_⟩
        simp only [Accepted.replaced, hFirst]
        rfl

/-- The outcome of a device state up to the replacement of the access list: it is stopped
before anything changes, fails after addresses were bound, or is accepted. -/
theorem beginDeviceState_cases (env : Env) (now : Time) (agent : Agent) (msg : TunnelMessage) :
    (agent.beginDeviceState env now msg = (agent, .ignored) ∨
      ∃ e, agent.beginDeviceState env now msg = (agent, .rejected e)) ∧
        IsEmpty (Checked env now agent msg) ∨
    (∃ (c : Checked env now agent msg) (e : DeviceStateError),
      agent.beginDeviceState env now msg =
        ({ agent with allocator := c.binding.1 }, .rejected e) ∧
      IsEmpty (Accepted env now agent msg)) ∨
    ∃ a : Accepted env now agent msg,
      agent.beginDeviceState env now msg = (a.replaced, .applying a.application) := by
  unfold Agent.beginDeviceState
  cases hDecode : decodeDeviceState env msg with
  | none =>
      refine Or.inl ⟨Or.inr ⟨.decode, rfl⟩, ⟨fun c => ?_⟩⟩
      cases hDecode.symm.trans c.decodes
  | some st =>
      have hNone : ∀ r, agent.checkState env now st = r → (∀ v, r ≠ .ok (some v)) →
          IsEmpty (Checked env now agent msg) := by
        refine fun r hr hne => ⟨fun c => hne c.verified (hr ▸ ?_)⟩
        cases hDecode.symm.trans c.decodes
        exact c.check_eq
      dsimp only [Agent.beginState]
      cases hCheck : agent.checkState env now st with
      | error e => exact Or.inl ⟨Or.inr ⟨e, rfl⟩, hNone _ hCheck (by simp)⟩
      | ok o =>
          cases o with
          | none => exact Or.inl ⟨Or.inl rfl, hNone _ hCheck (by simp)⟩
          | some verified =>
              obtain ⟨c, rfl, rfl⟩ := exists_checked hDecode hCheck
              dsimp only
              rcases install_cases c with ⟨e, hInstall, hNot⟩ | ⟨a, _, hInstall⟩
              · exact Or.inr (Or.inl ⟨c, e, hInstall, hNot⟩)
              · exact Or.inr (Or.inr ⟨a, hInstall⟩)

theorem handleDeviceState_cases (env : Env) (now : Time) (exec : List String → Bool) (agent : Agent)
    (msg : TunnelMessage) :
    (∃ r, agent.handleDeviceState env now exec msg = (agent, r) ∧
      (∀ pending, r ≠ .applied pending) ∧ IsEmpty (Checked env now agent msg)) ∨
    (∃ (c : Checked env now agent msg) (e : DeviceStateError),
      agent.handleDeviceState env now exec msg =
        ({ agent with allocator := c.binding.1 }, .rejected e) ∧
      IsEmpty (Accepted env now agent msg)) ∨
    ∃ a : Accepted env now agent msg, agent.handleDeviceState env now exec msg =
      (a.result exec, .applied a.application.pending) := by
  unfold Agent.handleDeviceState
  rcases beginDeviceState_cases env now agent msg with
    ⟨hr | ⟨e, hr⟩, hEmpty⟩ | ⟨c, e, hr, hEmpty⟩ | ⟨a, hr⟩ <;> rw [hr]
  · exact Or.inl ⟨.ignored, rfl, by simp, hEmpty⟩
  · exact Or.inl ⟨.rejected e, rfl, by simp, hEmpty⟩
  · exact Or.inr (Or.inl ⟨c, e, rfl, hEmpty⟩)
  · exact Or.inr (Or.inr ⟨a, rfl⟩)

theorem exists_handle_eq (h : Nonempty (Accepted env now agent msg)) (exec : List String → Bool) :
    ∃ a : Accepted env now agent msg, agent.handleDeviceState env now exec msg =
      (a.result exec, .applied a.application.pending) := by
  obtain ⟨a⟩ := h
  rcases handleDeviceState_cases env now exec agent msg with
    ⟨_, _, _, hEmpty⟩ | ⟨_, _, _, hEmpty⟩ | hHandled
  · exact hEmpty.elim a.toChecked
  · exact hEmpty.elim a
  · exact hHandled

/-- An accepted device state is applied. -/
theorem Accepted.applied (a : Accepted env now agent msg) (exec : List String → Bool) :
    ∃ pending, (agent.handleDeviceState env now exec msg).2 = .applied pending := by
  obtain ⟨b, hb⟩ := exists_handle_eq ⟨a⟩ exec
  exact ⟨b.application.pending, by rw [hb]⟩

theorem isApplied_iff_accepted (env : Env) (now : Time) (exec : List String → Bool) (agent : Agent)
    (msg : TunnelMessage) : (agent.handleDeviceState env now exec msg).2.isApplied = true ↔
      Nonempty (Accepted env now agent msg) := by
  constructor
  · intro hApplied
    rcases handleDeviceState_cases env now exec agent msg with
      ⟨r, hr, hNot, _⟩ | ⟨c, e, hr, _⟩ | ⟨a, _⟩
    · rw [hr] at hApplied
      obtain ⟨pending, rfl⟩ := DeviceStateResult.exists_applied hApplied
      exact absurd rfl (hNot pending)
    · rw [hr] at hApplied
      cases hApplied
    · exact ⟨a⟩
  · rintro ⟨a⟩
    obtain ⟨pending, hPending⟩ := a.applied exec
    rw [hPending]
    rfl

/-- The checks of a provision touch nothing but the nonces. -/
theorem checkProvision_state (env : Env) (now : Time) (agent : Agent) (msg : TunnelMessage) :
    ∃ nonces, (agent.checkProvision env now msg).1 = { agent with nonces := nonces } := by
  unfold Agent.checkProvision
  split
  · exact ⟨agent.nonces, rfl⟩
  · split
    · exact ⟨agent.nonces, rfl⟩
    · dsimp only
      split
      · exact ⟨agent.nonces, rfl⟩
      · exact ⟨_, rfl⟩

theorem checkNonce_eq_ok {store : Acl.Store} {p : ProvisionPayload} {entry : NonceEntry}
    {req : ProvisionRequest} (h : checkNonce env now store msg p entry = .ok req) :
    now - entry.createdAt ≤ shortLivedTTL ∧ p.nonce = entry.nonce ∧
      SignedByMember env store msg entry.memberID ∧ req.memberID = entry.memberID ∧
      req.nonce = entry.nonce := by
  obtain ⟨_, hFresh, h⟩ := bind_eq_ok.mp h
  obtain ⟨_, hNonce, h⟩ := bind_eq_ok.mp h
  obtain ⟨_, hVerify, h⟩ := bind_eq_ok.mp h
  cases h
  exact ⟨of_decide_eq_true (ensure_eq_ok.mp hFresh), of_decide_eq_true (ensure_eq_ok.mp hNonce),
    signedByMember_of_verifyCommand (mapError_eq_ok.mp hVerify), rfl, rfl⟩

/-- A provision that passes its checks has used up the nonce it names. -/
theorem checkProvision_eq_ok {req : ProvisionRequest}
    (h : (agent.checkProvision env now msg).2 = .ok req) :
    ∃ p entry, ProvisionPayload.unmarshal msg.payload = some p ∧
      agent.nonces.lookup (p.nonceKey msg.correlationID) = some entry ∧
      checkNonce env now agent.store msg p entry = .ok req ∧
      (agent.checkProvision env now msg).1 =
        { agent with nonces := agent.nonces.erase (p.nonceKey msg.correlationID) } := by
  unfold Agent.checkProvision at h ⊢
  split at h
  · cases h
  next hHost =>
    rw [if_neg hHost]
    cases hPayload : ProvisionPayload.unmarshal msg.payload with
    | none =>
        rw [hPayload] at h
        cases h
    | some p =>
        rw [hPayload] at h
        dsimp only at h ⊢
        cases hEntry : agent.nonces.lookup (p.nonceKey msg.correlationID) with
        | none =>
            rw [hEntry] at h
            cases h
        | some entry =>
            rw [hEntry] at h
            exact ⟨p, entry, rfl, hEntry, h, rfl⟩

theorem handleProvision_cases (env : Env) (now : Time) (exec : List String → Bool) (agent : Agent)
    (msg : TunnelMessage) :
    ∃ nonces,
      (agent.handleProvision env now exec msg).1 = { agent with nonces := nonces } ∨
      ∃ req, (agent.checkProvision env now msg).2 = .ok req ∧
        (agent.handleProvision env now exec msg).1 =
          (Agent.addClientPeer env exec { agent with nonces := nonces } req).1 := by
  obtain ⟨nonces, hState⟩ := checkProvision_state env now agent msg
  refine ⟨nonces, ?_⟩
  unfold Agent.handleProvision
  rcases hCheck : agent.checkProvision env now msg with ⟨checked, e | req⟩ <;> rw [hCheck] at hState
  · exact Or.inl hState
  · refine Or.inr ⟨req, rfl, ?_⟩
    dsimp only at hState ⊢
    subst hState
    rcases Agent.addClientPeer env exec { agent with nonces := nonces } req with ⟨added, e | ip⟩ <;>
      rfl

/-- The record of the client of a provision. -/
abbrev ProvisionRequest.record (env : Env) (req : ProvisionRequest) (ip : String) : ClientRecord :=
  { wgPublicKey := req.clientKey, tunnelIP := ip, tunnelIPv6 := env.server.tunnelIPv6 ip }

/-- A provision that succeeds has gone through every step. -/
theorem handleProvision_eq_ok {exec : List String → Bool} {response : ProvisionResponsePayload}
    (h : (agent.handleProvision env now exec msg).2 = .ok response) :
    ∃ req allocator ip store peers,
      (agent.checkProvision env now msg).2 = .ok req ∧
      agent.allocator.allocate env.subnet req.clientKey = some (allocator, ip) ∧
      agent.store.addClient req.memberID (req.record env ip) = (store, true) ∧
      env.server.addPeer exec agent.peers req.clientKey ip = .ok peers ∧
      (agent.handleProvision env now exec msg).1 =
        { (agent.checkProvision env now msg).1 with
          store := store, allocator := allocator, peers := peers } := by
  obtain ⟨nonces, hState⟩ := checkProvision_state env now agent msg
  unfold Agent.handleProvision at h ⊢
  rcases hCheck : agent.checkProvision env now msg with ⟨checked, e | req⟩ <;>
    rw [hCheck] at h hState <;> dsimp only at h hState ⊢
  · cases h
  · subst hState
    unfold Agent.addClientPeer at h ⊢
    cases hAllocate : agent.allocator.allocate env.subnet req.clientKey with
    | none =>
        simp only [hAllocate] at h
        cases h
    | some p =>
        obtain ⟨allocator, ip⟩ := p
        simp only [hAllocate] at h ⊢
        rcases hAdd : agent.store.addClient req.memberID (req.record env ip) with ⟨store, known⟩
        simp only [hAdd] at h ⊢
        cases known with
        | false => cases h
        | true =>
            cases hPeer : env.server.addPeer exec agent.peers req.clientKey ip with
            | error e =>
                simp only [hPeer] at h
                cases h
            | ok peers => exact ⟨req, allocator, ip, store, peers, rfl, hAllocate, hAdd, hPeer, rfl⟩

theorem handleChallenge_state (env : Env) (now : Time) (random : Option String) (agent : Agent)
    (msg : TunnelMessage) :
    ∃ nonces, (agent.handleChallenge env now random msg).1 = { agent with nonces := nonces } := by
  unfold Agent.handleChallenge
  split
  · exact ⟨agent.nonces, rfl⟩
  · split
    · exact ⟨agent.nonces, rfl⟩
    · split
      · exact ⟨agent.nonces, rfl⟩
      · exact ⟨_, rfl⟩

theorem handleHeartbeatAck_state (now : Time) (agent : Agent) (msg : TunnelMessage) :
    ∃ live, (agent.handleHeartbeatAck now msg).1 = { agent with live := live } := by
  unfold Agent.handleHeartbeatAck
  split
  · exact ⟨agent.live, rfl⟩
  · dsimp only
    split
    · exact ⟨_, rfl⟩
    · exact ⟨agent.live, rfl⟩

/-- What a step does to the store, the addresses and the peers. -/
inductive Effect (env : Env) (agent : Agent) (input : Input) : Agent → Prop where
  /-- Nothing. -/
  | quiet (nonces : StringMap NonceEntry) (live : Option LivenessState) :
      Effect env agent input { agent with nonces := nonces, live := live }
  /-- A device state fails after addresses were bound. -/
  | unbound (msg : TunnelMessage) (hEvent : input.event = .deviceState msg)
      (c : Checked env input.now agent msg) :
      Effect env agent input { agent with allocator := c.binding.1 }
  | applied (msg : TunnelMessage) (hEvent : input.event = .deviceState msg)
      (a : Accepted env input.now agent msg) : Effect env agent input (a.result input.exec)
  /-- A provision passes its checks. -/
  | provisioned (msg : TunnelMessage) (hEvent : input.event = .provision msg)
      (nonces : StringMap NonceEntry) (req : ProvisionRequest)
      (hPasses : (agent.checkProvision env input.now msg).2 = .ok req) :
      Effect env agent input
        (Agent.addClientPeer env input.exec { agent with nonces := nonces } req).1
  /-- The liveness watch trips. -/
  | dropped (live : Option LivenessState) (hEvent : input.event = .livenessTick)
      (hTrip : (agent.decideLiveness input.now).2 = true) :
      Effect env agent input (Agent.dropAllPeers { agent with live := live })

theorem step_effect (env : Env) (agent : Agent) (input : Input) :
    Effect env agent input (agent.step env input) := by
  unfold Agent.step
  cases hEvent : input.event with
  | deviceState msg =>
      dsimp only
      rcases handleDeviceState_cases env input.now input.exec agent msg with
        ⟨r, hr, _⟩ | ⟨c, e, hr, _⟩ | ⟨a, hr⟩ <;> rw [hr]
      · exact .quiet agent.nonces agent.live
      · exact .unbound msg hEvent c
      · exact .applied msg hEvent a
  | challenge random msg =>
      obtain ⟨nonces, hState⟩ := handleChallenge_state env input.now random agent msg
      dsimp only
      rw [hState]
      exact .quiet nonces agent.live
  | provision msg =>
      obtain ⟨nonces, hQuiet | ⟨req, hPasses, hState⟩⟩ :=
        handleProvision_cases env input.now input.exec agent msg <;> dsimp only
      · rw [hQuiet]
        exact .quiet nonces agent.live
      · rw [hState]
        exact .provisioned msg hEvent nonces req hPasses
  | heartbeatAck msg =>
      obtain ⟨live, hState⟩ := handleHeartbeatAck_state input.now agent msg
      dsimp only
      rw [hState]
      exact .quiet agent.nonces live
  | other msg => exact .quiet agent.nonces agent.live
  | livenessTick =>
      dsimp only [Agent.checkLiveness]
      by_cases hTrip : (agent.decideLiveness input.now).2 = true
      · rw [if_pos hTrip]
        exact .dropped _ hEvent hTrip
      · rw [if_neg hTrip]
        exact .quiet agent.nonces _
  | reap visited => exact .quiet _ agent.live

theorem step_of_deviceState (env : Env) (agent : Agent) (h : input.event = .deviceState msg) :
    agent.step env input = (agent.handleDeviceState env input.now input.exec msg).1 := by
  rw [Agent.step, h]

/-- The four ways a provision ends once its checks have passed. -/
inductive Provisioned (env : Env) (exec : List String → Bool) (agent : Agent)
    (req : ProvisionRequest) : Agent → Prop where
  | noAddress (hNone : agent.allocator.allocate env.subnet req.clientKey = none) :
      Provisioned env exec agent req agent
  | unknownMember (allocator : Allocator) (ip : String) (store : Acl.Store)
      (hAllocate : agent.allocator.allocate env.subnet req.clientKey = some (allocator, ip))
      (hAdd : agent.store.addClient req.memberID (req.record env ip) = (store, false)) :
      Provisioned env exec agent req
        { agent with store := store, allocator := allocator.release req.clientKey }
  | peerRefused (allocator : Allocator) (ip : String) (store : Acl.Store) (e : PeerError)
      (hAllocate : agent.allocator.allocate env.subnet req.clientKey = some (allocator, ip))
      (hAdd : agent.store.addClient req.memberID (req.record env ip) = (store, true))
      (hPeer : env.server.addPeer exec agent.peers req.clientKey ip = .error e) :
      Provisioned env exec agent req
        { agent with
          store := (store.removeClient req.memberID req.clientKey).1
          allocator := allocator.release req.clientKey }
  | installed (allocator : Allocator) (ip : String) (store : Acl.Store) (peers : Peers)
      (hAllocate : agent.allocator.allocate env.subnet req.clientKey = some (allocator, ip))
      (hAdd : agent.store.addClient req.memberID (req.record env ip) = (store, true))
      (hPeer : env.server.addPeer exec agent.peers req.clientKey ip = .ok peers) :
      Provisioned env exec agent req
        { agent with store := store, allocator := allocator, peers := peers }

theorem addClientPeer_cases (env : Env) (exec : List String → Bool) (agent : Agent)
    (req : ProvisionRequest) :
    Provisioned env exec agent req (agent.addClientPeer env exec req).1 := by
  unfold Agent.addClientPeer
  cases hAllocate : agent.allocator.allocate env.subnet req.clientKey with
  | none => exact .noAddress hAllocate
  | some p =>
      obtain ⟨allocator, ip⟩ := p
      dsimp only
      rcases hAdd : agent.store.addClient req.memberID (req.record env ip) with ⟨store, known⟩
      cases known with
      | false => exact .unknownMember allocator ip store hAllocate hAdd
      | true =>
          dsimp only
          cases hPeer : env.server.addPeer exec agent.peers req.clientKey ip with
          | error e => exact .peerRefused allocator ip store e hAllocate hAdd hPeer
          | ok peers => exact .installed allocator ip store peers hAllocate hAdd hPeer

@[simp] theorem perform_store (env : Env) (exec : List String → Bool) (agent : Agent)
    (op : PeerOp) : (agent.perform env exec op).store = agent.store := by
  cases op with
  | prune key => rfl
  | drop key => rfl
  | install key ip =>
      rw [Agent.perform]
      split <;> rfl

@[simp] theorem foldl_perform_store (env : Env) (exec : List String → Bool) (ops : List PeerOp)
    (agent : Agent) : (ops.foldl (Agent.perform env exec) agent).store = agent.store := by
  induction ops generalizing agent with
  | nil => rfl
  | cons op ops ih => rw [List.foldl_cons, ih, perform_store]

/-- The store after an apply. -/
theorem Accepted.result_store (a : Accepted env now agent msg) (exec : List String → Bool) :
    (a.result exec).store = a.store.setAppliedGeneration a.st.generation now := by
  have hPerformed : (a.performed exec).store = a.store := foldl_perform_store env exec _ a.replaced
  change (a.performed exec).store.setAppliedGeneration _ _ = _
  rw [hPerformed]
  rfl

/-- The device state that an input applies. -/
def Agent.appliedState (env : Env) (agent : Agent) (input : Input) : Option DeviceState :=
  match input.event with
  | .deviceState msg =>
      if (agent.handleDeviceState env input.now input.exec msg).2.isApplied then
        decodeDeviceState env msg
      else none
  | _ => none

theorem appliedState_of_accepted (hEvent : input.event = .deviceState msg)
    (a : Accepted env input.now agent msg) : agent.appliedState env input = some a.st := by
  obtain ⟨pending, hApplied⟩ := a.applied input.exec
  unfold Agent.appliedState
  rw [hEvent]
  dsimp only
  rw [hApplied]
  exact a.decodes

theorem exists_accepted (h : agent.appliedState env input = some st) :
    ∃ msg, input.event = .deviceState msg ∧ ∃ a : Accepted env input.now agent msg, a.st = st ∧
      agent.step env input = a.result input.exec := by
  unfold Agent.appliedState at h
  split at h
  next msg hEvent =>
    refine ⟨msg, hEvent, ?_⟩
    split at h
    next hApplied =>
      obtain ⟨pending, hResult⟩ := DeviceStateResult.exists_applied hApplied
      rcases handleDeviceState_cases env input.now input.exec agent msg with
        ⟨r, hr, hNot, _⟩ | ⟨c, e, hr, _⟩ | ⟨a, hr⟩
      · rw [hr] at hResult
        exact absurd hResult (hNot pending)
      · rw [hr] at hResult
        cases hResult
      · refine ⟨a, Option.some.inj (a.decodes.symm.trans h), ?_⟩
        rw [step_of_deviceState env agent hEvent, hr]
    · cases h
  · cases h

theorem decodes_of_appliedState (h : agent.appliedState env input = some st)
    (hEvent : input.event = .deviceState msg) : decodeDeviceState env msg = some st := by
  obtain ⟨msg', hMsg, a, rfl, _⟩ := exists_accepted h
  cases hEvent.symm.trans hMsg
  exact a.decodes

end Tunnel
