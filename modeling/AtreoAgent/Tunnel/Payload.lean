import AtreoAgent.Atreolink.Types
import AtreoAgent.Canonjson
import AtreoAgent.Json.Decode

/-! The signed payloads of the tunnel protocol, as the handlers decode them. A
payload is verified over its canonical bytes and then decoded into its struct. -/
namespace Tunnel

open Codec Json

/-- Part of every signed payload. -/
structure CommandEnvelopeFields where
  intent : String
  timestamp : Int
  deriving DecidableEq, Repr

structure AppUpsertedPayload extends CommandEnvelopeFields where
  deviceID : String
  app : Atreolink.App
  deriving DecidableEq, Repr

structure MemberStatusPayload extends CommandEnvelopeFields where
  deviceID : String
  memberID : String
  status : String
  changedAt : String
  deriving DecidableEq, Repr

/-- A nil slice of app ids is `none`. -/
structure MemberPermissionsPayload extends CommandEnvelopeFields where
  deviceID : String
  memberID : String
  allowedAppIDs : Option (List String)
  deriving DecidableEq, Repr

structure ClientRegisterPayload extends CommandEnvelopeFields where
  deviceID : String
  memberID : String
  publicKey : String
  clientName : String
  platform : String
  deriving DecidableEq, Repr

structure CustomDomainSetPayload extends CommandEnvelopeFields where
  deviceID : String
  parentZone : String
  actedAt : String
  deriving DecidableEq, Repr

/-- The payload types of the signed state envelopes. -/
inductive PayloadType where
  | appUpserted | memberStatus | memberPermissions | clientRegister | customDomainSet
  deriving DecidableEq, Repr

def envelopeSchema : Schema := [("intent", .leaf .text), ("ts", .leaf .int)]

def appFields : List (String × Leaf) :=
  [("id", .text), ("name", .text), ("slug", .text), ("internalUrl", .text), ("icon", .text),
    ("type", .text), ("port", .int), ("protocol", .text)]

namespace PayloadType

/-- The field names of the JSON tags. -/
def schema : PayloadType → Schema
  | appUpserted => envelopeSchema ++ [("deviceId", .leaf .text), ("app", .record appFields)]
  | memberStatus => envelopeSchema ++
      [("deviceId", .leaf .text), ("memberId", .leaf .text), ("status", .leaf .text),
        ("changedAt", .leaf .text)]
  | memberPermissions => envelopeSchema ++
      [("deviceId", .leaf .text), ("memberId", .leaf .text), ("allowedAppIds", .leaf .texts)]
  | clientRegister => envelopeSchema ++
      [("deviceId", .leaf .text), ("memberId", .leaf .text), ("publicKey", .leaf .text),
        ("clientName", .leaf .text), ("platform", .leaf .text)]
  | customDomainSet => envelopeSchema ++
      [("deviceId", .leaf .text), ("parentZone", .leaf .text), ("actedAt", .leaf .text)]

abbrev Struct : PayloadType → Type
  | appUpserted => AppUpsertedPayload
  | memberStatus => MemberStatusPayload
  | memberPermissions => MemberPermissionsPayload
  | clientRegister => ClientRegisterPayload
  | customDomainSet => CustomDomainSetPayload

end PayloadType

/-- The value of a string field after the given stores. -/
def textAt (es : List Event) (path : List String) : String := finalText (storesAt path es)

def intAt (es : List Event) (path : List String) : Int := finalInt (storesAt path es)

def textsAt (es : List Event) (path : List String) : Option (List String) :=
  finalTexts (storesAt path es)

def readEnvelope (es : List Event) : CommandEnvelopeFields :=
  { intent := textAt es ["intent"], timestamp := intAt es ["ts"] }

def readApp (es : List Event) : Atreolink.App :=
  { id := textAt es ["app", "id"]
    name := textAt es ["app", "name"]
    slug := textAt es ["app", "slug"]
    internalUrl := textAt es ["app", "internalUrl"]
    icon := textAt es ["app", "icon"]
    type := textAt es ["app", "type"]
    port := intAt es ["app", "port"]
    protocol := textAt es ["app", "protocol"] }

/-- The struct the stores of a decoder leave. -/
def PayloadType.read : (T : PayloadType) → List Event → T.Struct
  | .appUpserted, es =>
      { readEnvelope es with deviceID := textAt es ["deviceId"], app := readApp es }
  | .memberStatus, es =>
      { readEnvelope es with
        deviceID := textAt es ["deviceId"]
        memberID := textAt es ["memberId"]
        status := textAt es ["status"]
        changedAt := textAt es ["changedAt"] }
  | .memberPermissions, es =>
      { readEnvelope es with
        deviceID := textAt es ["deviceId"]
        memberID := textAt es ["memberId"]
        allowedAppIDs := textsAt es ["allowedAppIds"] }
  | .clientRegister, es =>
      { readEnvelope es with
        deviceID := textAt es ["deviceId"]
        memberID := textAt es ["memberId"]
        publicKey := textAt es ["publicKey"]
        clientName := textAt es ["clientName"]
        platform := textAt es ["platform"] }
  | .customDomainSet, es =>
      { readEnvelope es with
        deviceID := textAt es ["deviceId"]
        parentZone := textAt es ["parentZone"]
        actedAt := textAt es ["actedAt"] }

/-- `json.Unmarshal` into a payload struct. -/
def PayloadType.unmarshal (T : PayloadType) (bs : Bytes) : Option T.Struct :=
  (Json.unmarshal T.schema bs).map T.read

end Tunnel
