import AtreoAgent.Tunnel.Apply
import AtreoAgent.Tunnel.Provision

/-! The agent as a machine: one input is a message of the tunnel or the tick of a
timer, with the clock, the random source and the outcome of the commands it runs.
Messages are handled one at a time. -/
namespace Tunnel

open Codec Json Atreolink WireGuard

inductive Event where
  | deviceState (msg : TunnelMessage)
  | challenge (random : Option String) (msg : TunnelMessage)
  | provision (msg : TunnelMessage)
  | heartbeatAck (msg : TunnelMessage)
  /-- A message of another type, or one that unpairs and is refused; neither changes
  this state. -/
  | other (msg : TunnelMessage)
  | livenessTick
  | reap (visited : List String)

structure Input where
  now : Time
  exec : List String → Bool
  event : Event

/-- Every `wg` and `ip` command succeeds. -/
def Input.CommandsSucceed (input : Input) : Prop := ∀ command, input.exec command = true

structure DeviceUnpairedPayload extends CommandEnvelopeFields where
  deviceID : String
  deriving DecidableEq, Repr

def DeviceUnpairedPayload.unmarshal (bs : Bytes) : Option DeviceUnpairedPayload :=
  (Json.unmarshal (envelopeSchema ++ [("deviceId", .leaf .text)]) bs).map fun es =>
    { readEnvelope es with deviceID := textAt es ["deviceId"] }

namespace Agent

/-- Whether `HandleUnpaired` accepts. If it does, the pin is cleared and the process
ends. -/
def acceptsUnpaired (env : Env) (now : Time) (agent : Agent) (msg : TunnelMessage) : Bool :=
  match DeviceUnpairedPayload.unmarshal msg.payload with
  | none => false
  | some p =>
      !(p.deviceID ≠ "" ∧ p.deviceID ≠ env.deviceID) &&
        (verifyCommand env agent.store now msg .admin p.toCommandEnvelopeFields
          ("unpair-device-" ++ env.deviceID ++ "-" ++ toString p.timestamp)).isOk

def step (env : Env) (agent : Agent) (input : Input) : Agent :=
  match input.event with
  | .deviceState msg => (agent.handleDeviceState env input.now input.exec msg).1
  | .challenge random msg => (agent.handleChallenge env input.now random msg).1
  | .provision msg => (agent.handleProvision env input.now input.exec msg).1
  | .heartbeatAck msg => (agent.handleHeartbeatAck input.now msg).1
  | .other _ => agent
  | .livenessTick => agent.checkLiveness input.now
  | .reap visited => agent.reapNonces input.now visited

/-- An agent that has just been paired: nothing but the pin. -/
def fresh (env : Env) (pin : Option PublicKey) : Agent :=
  { store := { Acl.Store.new with pinnedAdminPubKey := pin }
    allocator := Allocator.new env.subnet
    peers := ∅
    nonces := ∅
    live := none }

end Agent

end Tunnel
