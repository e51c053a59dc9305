import AtreoAgent.Tunnel.DeviceState

/-! The second half of `HandleDeviceState`: binding addresses, replacing the access
list and reconciling the peers, and the heartbeat that confirms a generation. -/
namespace Tunnel

open Codec Json Atreolink WireGuard Fallible

/-- The address a verified lease restores, or the empty string; a later lease for the
same key replaces an earlier one. -/
def leaseIP (leases : List (String × String)) (key : String) : String :=
  ((leases.reverse.find? (·.1 = key)).map (·.2)).getD ""

/-- An existing allocation wins, then a verified lease of a free address, then a fresh
address. A client without a key gets none. -/
def bindClient (net : Subnet) (leases : List (String × String)) (a : Allocator) (c : ClientRecord) :
    Allocator × Except DeviceStateError ClientRecord :=
  if c.wgPublicKey = "" then (a, .ok c)
  else if a.lookup c.wgPublicKey ≠ "" then
    (a, .ok { c with tunnelIP := a.lookup c.wgPublicKey })
  else
    let lip := leaseIP leases c.wgPublicKey
    match if lip = "" then none else a.tryAdopt net c.wgPublicKey lip with
    | some adopted => (adopted, .ok { c with tunnelIP := lip })
    | none =>
        match a.allocate net c.wgPublicKey with
        | none => (a, .error (.allocate c.wgPublicKey))
        | some (allocated, ip) => (allocated, .ok { c with tunnelIP := ip })

def bindMember (net : Subnet) (leases : List (String × String)) (a : Allocator)
    (m : MemberACLEntry) : Allocator × Except DeviceStateError MemberACLEntry :=
  let bound := walk (bindClient net leases) a m.clients
  (bound.1, bound.2.map fun clients => { m with clients := clients })

def bindMembers (net : Subnet) (leases : List (String × String)) :
    Allocator → List MemberACLEntry → Allocator × Except DeviceStateError (List MemberACLEntry) :=
  walk (bindMember net leases)

def deriveClientIPv6 (srv : Server) (c : ClientRecord) : ClientRecord :=
  if c.tunnelIP = "" then c else { c with tunnelIPv6 := srv.tunnelIPv6 c.tunnelIP }

/-- The IPv6 host of each client that has an address. -/
def deriveIPv6 (srv : Server) (members : List MemberACLEntry) : List MemberACLEntry :=
  members.map fun m => { m with clients := m.clients.map (deriveClientIPv6 srv) }

/-- One operation on the peers of an apply. -/
inductive PeerOp where
  /-- The key left the access list: remove its peer and release its address. -/
  | prune (key : String)
  /-- The member is suspended. -/
  | drop (key : String)
  | install (key ip : String)
  deriving DecidableEq, Repr

def memberOps (m : MemberACLEntry) : List PeerOp :=
  if m.status = "suspended" then
    (m.clients.filter (·.wgPublicKey ≠ "")).map fun c => .drop c.wgPublicKey
  else
    (m.clients.filter fun c => c.wgPublicKey ≠ "" ∧ c.tunnelIP ≠ "").map fun c =>
      .install c.wgPublicKey c.tunnelIP

def peerOps (removedClientKeys : List String) (members : List MemberACLEntry) : List PeerOp :=
  removedClientKeys.map .prune ++ members.flatMap memberOps

/-- A failing `AddPeer` is logged. -/
def Agent.perform (env : Env) (exec : List String → Bool) (agent : Agent) : PeerOp → Agent
  | .prune key =>
      { agent with peers := removePeer agent.peers key, allocator := agent.allocator.release key }
  | .drop key => { agent with peers := removePeer agent.peers key }
  | .install key ip =>
      match env.server.addPeer exec agent.peers key ip with
      | .ok peers => { agent with peers := peers }
      | .error _ => agent

/-- What is left of an apply once the access list has been replaced. -/
structure Application where
  ops : List PeerOp
  generation : Int
  now : Time
  pending : List AdmittanceCertificate

inductive Begun where
  | rejected (e : DeviceStateError)
  /-- The generation is older than the applied one. -/
  | ignored
  | applying (application : Application)

/-- Bind addresses and replace the access list by a verified state. -/
def Agent.install (env : Env) (now : Time) (agent : Agent) (generation : Int)
    (verified : VerifiedState) : Agent × Begun :=
  let leases := verified.members.flatMap (·.leases)
  match bindMembers env.subnet leases agent.allocator (verified.members.map (·.entry)) with
  | (allocator, .error e) => ({ agent with allocator := allocator }, .rejected e)
  | (allocator, .ok bound) =>
      let members := deriveIPv6 env.server bound
      match agent.store.reconcile members verified.apps with
      | .error e => ({ agent with allocator := allocator }, .rejected (.reconcile e))
      | .ok (store, removed) =>
          ({ agent with allocator := allocator, store := store },
            .applying
              { ops := peerOps removed.clientKeys members
                generation := generation
                now := now
                pending := verified.members.filterMap (·.pending) })

/-- The checks on a decoded state up to the end of the verification phase; `none` for a
generation that is older than the applied one. -/
def Agent.checkState (env : Env) (now : Time) (agent : Agent) (st : DeviceState) :
    Except DeviceStateError (Option VerifiedState) :=
  if st.deviceID ≠ "" ∧ st.deviceID ≠ env.deviceID then
    .error (.deviceID st.deviceID env.deviceID)
  else if st.generation < agent.store.generation then .ok none
  else
    match agent.store.pinnedAdminPubKey with
    | none => .error .notPaired
    | some ownerPub => (verifyState env agent.store ownerPub now st).map some

/-- Check a decoded state and replace the access list by it. -/
def Agent.beginState (env : Env) (now : Time) (agent : Agent) (st : DeviceState) : Agent × Begun :=
  match agent.checkState env now st with
  | .error e => (agent, .rejected e)
  | .ok none => (agent, .ignored)
  | .ok (some verified) => agent.install env now st.generation verified

section Verified

variable {env : Env} {now : Time} {agent : Agent} {st : DeviceState} {ownerPub : PublicKey}
  {verified : VerifiedState} (hDevice : ¬ (st.deviceID ≠ "" ∧ st.deviceID ≠ env.deviceID))
  (hNewer : agent.store.generation ≤ st.generation)
  (hPinned : agent.store.pinnedAdminPubKey = some ownerPub)
  (hVerifies : verifyState env agent.store ownerPub now st = .ok verified)

include hDevice hNewer hPinned hVerifies

theorem checkState_of_verifies : agent.checkState env now st = .ok (some verified) := by
  unfold Agent.checkState
  simp only [hPinned, hVerifies, if_neg hDevice, if_neg (Int.not_lt.mpr hNewer)]
  rfl

/-- A state that verifies is installed. -/
theorem beginState_of_verifies :
    agent.beginState env now st = agent.install env now st.generation verified := by
  rw [Agent.beginState, checkState_of_verifies hDevice hNewer hPinned hVerifies]

end Verified

/-- `HandleDeviceState` up to and including the replacement of the access list. -/
def Agent.beginDeviceState (env : Env) (now : Time) (agent : Agent) (msg : TunnelMessage) :
    Agent × Begun :=
  match decodeDeviceState env msg with
  | none => (agent, .rejected .decode)
  | some st => agent.beginState env now st

/-- The end of an apply. -/
def Agent.finishApply (agent : Agent) (application : Application) : Agent :=
  Agent.markLiveness
    { agent with
      store := agent.store.setAppliedGeneration application.generation application.now }
    application.now true

inductive DeviceStateResult where
  | rejected (e : DeviceStateError)
  | ignored
  | applied (pending : List AdmittanceCertificate)

/-- The rest of `HandleDeviceState`. -/
def completeApply (env : Env) (exec : List String → Bool) :
    Agent × Begun → Agent × DeviceStateResult
  | (agent, .rejected e) => (agent, .rejected e)
  | (agent, .ignored) => (agent, .ignored)
  | (agent, .applying application) =>
      ((application.ops.foldl (Agent.perform env exec) agent).finishApply application,
        .applied application.pending)

def Agent.handleDeviceState (env : Env) (now : Time) (exec : List String → Bool) (agent : Agent)
    (msg : TunnelMessage) : Agent × DeviceStateResult :=
  completeApply env exec (agent.beginDeviceState env now msg)

/-- A message that decodes is handled by its state. -/
theorem handleDeviceState_of_decode {env : Env} {msg : TunnelMessage} {st : DeviceState}
    (h : decodeDeviceState env msg = some st) (now : Time) (exec : List String → Bool)
    (agent : Agent) :
    agent.handleDeviceState env now exec msg = completeApply env exec (agent.beginState env now st) := by
  rw [Agent.handleDeviceState, Agent.beginDeviceState, h]

/-- The generation a heartbeat carries; `none` when the payload does not parse. -/
def heartbeatGeneration (msg : TunnelMessage) : Option Int :=
  (Json.unmarshal [("generation", .leaf .int)] msg.payload).map fun es => intAt es ["generation"]

/-- An equal generation is a sign of life. -/
def Agent.handleHeartbeatAck (now : Time) (agent : Agent) (msg : TunnelMessage) :
    Agent × Option Unit :=
  match heartbeatGeneration msg with
  | none => (agent, none)
  | some generation =>
      (if generation = agent.store.generation then agent.markLiveness now false else agent, some ())

end Tunnel
