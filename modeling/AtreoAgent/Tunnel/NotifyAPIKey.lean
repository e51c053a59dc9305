import AtreoAgent.Machine.Fallible
import AtreoAgent.Tunnel.Verify

/-! The commands that show and replace the key of the notification server. Both are
fresh commands of an admin, bound to this device by their intent. -/
namespace Tunnel

open Codec Json Atreolink Fallible

/-- The notification server as the tunnel sees it. -/
structure NotifyServer where
  apiKey : String
  port : Int
  deriving DecidableEq, Repr

inductive NotifyKeyError where
  /-- `notification API not configured` -/
  | notConfigured
  /-- `unmarshal …` -/
  | payload
  /-- `deviceId mismatch` -/
  | deviceMismatch (deviceID : String)
  | command (e : VerifyError)
  /-- `rotate api key: …` -/
  | rotate
  deriving DecidableEq, Repr

structure NotifyAPIKeyPayload extends CommandEnvelopeFields where
  deviceID : String
  deriving DecidableEq, Repr

def notifyAPIKeySchema : Schema := envelopeSchema ++ [("deviceId", .leaf .text)]

def NotifyAPIKeyPayload.unmarshal (bs : Bytes) : Option NotifyAPIKeyPayload :=
  (Json.unmarshal notifyAPIKeySchema bs).map fun es =>
    { readEnvelope es with deviceID := textAt es ["deviceId"] }

/-- The checks the two handlers share; the intent of each starts with its own text. -/
def checkNotifyCommand (start : String) (env : Env) (store : Acl.Store) (now : Time)
    (notifyServer : Option NotifyServer) (msg : TunnelMessage) :
    Except NotifyKeyError NotifyServer := do
  let server ← require .notConfigured notifyServer
  let payload ← require .payload (NotifyAPIKeyPayload.unmarshal msg.payload)
  ensure (.deviceMismatch payload.deviceID)
    (payload.deviceID = "" ∨ payload.deviceID = env.deviceID)
  (verifyCommand env store now msg .admin payload.toCommandEnvelopeFields
    (start ++ env.deviceID ++ "-" ++ toString payload.timestamp)).mapError .command
  .ok server

def handleNotifyAPIKey (env : Env) (store : Acl.Store) (now : Time)
    (notifyServer : Option NotifyServer) (msg : TunnelMessage) :
    Except NotifyKeyError TunnelMessage := do
  let server ← checkNotifyCommand "notify:apikey-" env store now notifyServer msg
  .ok {
    type := "notify:apikey:response"
    correlationID := msg.correlationID
    payload := (Doc.obj [("apiKey", .str server.apiKey),
      ("port", .num (Number.ofInt server.port))]).print true
    signerID := ""
    signature := "" }

/-- `generated` is the key `GenerateAPIKey` makes, if it can write it. -/
def handleNotifyAPIKeyRotate (env : Env) (store : Acl.Store) (now : Time)
    (generated : Option String) (notifyServer : Option NotifyServer) (msg : TunnelMessage) :
    Except NotifyKeyError (NotifyServer × TunnelMessage) := do
  let server ← checkNotifyCommand "notify:apikey:rotate-" env store now notifyServer msg
  let newKey ← require .rotate generated
  .ok ({ server with apiKey := newKey },
    { type := "notify:apikey:rotate:response"
      correlationID := msg.correlationID
      payload := (Doc.obj [("apiKey", .str newKey)]).print true
      signerID := ""
      signature := "" })

theorem checkNotifyCommand_eq_ok {start : String} {env : Env} {store : Acl.Store} {now : Time}
    {notifyServer : Option NotifyServer} {msg : TunnelMessage} {server : NotifyServer}
    (h : checkNotifyCommand start env store now notifyServer msg = .ok server) :
    ∃ es, Json.unmarshal notifyAPIKeySchema msg.payload = some es ∧
      textAt es ["intent"] = start ++ env.deviceID ++ "-" ++ toString (intAt es ["ts"]) := by
  obtain ⟨_, _, h⟩ := bind_eq_ok.mp h
  obtain ⟨p, hPayload, h⟩ := bind_eq_ok.mp h
  obtain ⟨_, _, h⟩ := bind_eq_ok.mp h
  obtain ⟨_, hCommand, _⟩ := bind_eq_ok.mp h
  obtain ⟨es, hEvents, rfl⟩ := Option.map_eq_some_iff.mp (require_eq_ok.mp hPayload)
  exact ⟨es, hEvents, (verifyCommand_eq_ok (mapError_eq_ok.mp hCommand)).1⟩

end Tunnel
