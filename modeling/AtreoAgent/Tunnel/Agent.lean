import AtreoAgent.Tunnel.Verify

/-! The state the tunnel handlers share, and the fail-closed watch over it. Peers are
dropped when no verified state is usable: nothing applied since the start, or no sign
of life of the server for too long. -/
namespace Tunnel

open Codec Atreolink WireGuard

structure NonceEntry where
  nonce : String
  memberID : String
  clientKey : String
  createdAt : Time
  deriving DecidableEq, Repr

structure LivenessState where
  bootAt : Time
  appliedOnce : Bool
  lastPositiveLiveness : Option Time
  failClosed : Bool
  deriving DecidableEq, Repr

/-- `live` is set up at first use. -/
structure Agent where
  store : Acl.Store
  allocator : Allocator
  peers : Peers
  nonces : StringMap NonceEntry
  live : Option LivenessState

/-- Thirty minutes. -/
def staleBound : Time := 1800000000000

/-- Ninety seconds. -/
def coldStartTimeout : Time := 90000000000

namespace Agent

def liveness (agent : Agent) (now : Time) : LivenessState :=
  agent.live.getD
    { bootAt := now, appliedOnce := false, lastPositiveLiveness := none, failClosed := false }

/-- Record server liveness and lift fail-closed. -/
def markLiveness (agent : Agent) (now : Time) (applied : Bool) : Agent :=
  let l := agent.liveness now
  { agent with
    live := some { l with
      lastPositiveLiveness := some now
      appliedOnce := applied || l.appliedOnce
      failClosed := false } }

/-- Whether the state on disk was applied recently enough. -/
def recentlyApplied (agent : Agent) (now : Time) : Bool :=
  match agent.store.lastAppliedAt with
  | some at_ => now - at_ ≤ staleBound
  | none => false

/-- The part of `checkLiveness` under the lock: the new liveness state and whether
the watch trips. -/
def decideLiveness (agent : Agent) (now : Time) : LivenessState × Bool :=
  let l := agent.liveness now
  if l.failClosed then (l, false)
  else if !l.appliedOnce then
    if agent.recentlyApplied now then
      ({ l with
        appliedOnce := true
        lastPositiveLiveness := l.lastPositiveLiveness.or agent.store.lastAppliedAt }, false)
    else
      let trip := decide (coldStartTimeout < now - l.bootAt)
      ({ l with failClosed := trip }, trip)
  else
    let trip :=
      match l.lastPositiveLiveness.or agent.store.lastAppliedAt with
      | some ref => decide (staleBound < now - ref)
      | none => false
    ({ l with failClosed := trip }, trip)

/-- The keys `dropAllPeers` goes through. -/
def dropKeys (agent : Agent) : List String :=
  (Acl.clientKeys agent.store.members).filter (· ≠ "")

/-- Every peer of a client record goes; its address stays allocated. -/
def dropAllPeers (agent : Agent) : Agent :=
  { agent with peers := agent.dropKeys.foldl removePeer agent.peers }

def checkLiveness (agent : Agent) (now : Time) : Agent :=
  let decided := { agent with live := some (agent.decideLiveness now).1 }
  if (agent.decideLiveness now).2 then decided.dropAllPeers else decided

end Agent

end Tunnel
