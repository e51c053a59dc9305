import AtreoAgent.Json.Decode

/-! The grant of the coordination service that names a relay (`grant.go`). Its payload is passed
on as it came and parsed only to learn where to connect. -/
namespace Relay

open Codec Json

/-- A grant as it arrives. The relay verifies the signature over the payload, not the agent, which
is why both are kept as they came. -/
structure SignedGrant where
  payload : Bytes
  signature : String
  deriving DecidableEq, Repr

/-- What the payload says: where to dial, for which device and key, and from when to when, in
seconds since 1970. -/
structure Grant where
  deviceID : String
  agentEd25519Pub : String
  relayHost : String
  relayPort : Int
  controlURL : String
  issuedAt : Int
  expiresAt : Int
  deriving DecidableEq, Repr

/-- Why a grant is refused. It is then dropped, and the one before stays in force. -/
inductive GrantError where
  /-- `parse relay grant: …` -/
  | parse
  /-- `relay grant missing controlUrl/relayHost/relayPort` -/
  | missing
  deriving DecidableEq, Repr

/-- The fields with their JSON names; any others are ignored. -/
def grantSchema : Schema :=
  [("deviceId", .leaf .text), ("agentEd25519Pub", .leaf .text), ("relayHost", .leaf .text),
    ("relayPort", .leaf .int), ("controlUrl", .leaf .text), ("iat", .leaf .int),
    ("exp", .leaf .int)]

/-- The last value of each field, or the zero value of one that is not there. -/
def readGrant (es : List Json.Event) : Grant :=
  { deviceID := finalText (storesAt ["deviceId"] es)
    agentEd25519Pub := finalText (storesAt ["agentEd25519Pub"] es)
    relayHost := finalText (storesAt ["relayHost"] es)
    relayPort := finalInt (storesAt ["relayPort"] es)
    controlURL := finalText (storesAt ["controlUrl"] es)
    issuedAt := finalInt (storesAt ["iat"] es)
    expiresAt := finalInt (storesAt ["exp"] es) }

/-- `Parse`. Only what is needed to dial is required, so a grant may be without a device, a key
or an expiry. -/
def SignedGrant.parse (sg : SignedGrant) : Except GrantError Grant :=
  match unmarshal grantSchema sg.payload with
  | none => .error .parse
  | some es =>
      let g := readGrant es
      if g.controlURL = "" ∨ g.relayHost = "" ∨ g.relayPort = 0 then .error .missing else .ok g

/-- How long before the expiry a new grant is asked for: ten minutes, in nanoseconds. -/
def grantRefreshLead : Int := 10 * 60 * 1000000000

/-- The grant has expired. The time is in nanoseconds since 1970 and the expiry in seconds; zero
means that there is none. -/
def grantExpired (now : Int) (info : Grant) : Bool :=
  info.expiresAt ≠ 0 && decide (info.expiresAt ≤ now / 1000000000)

/-- The grant expires within the lead, or has expired. Like `grantExpired` it never holds of a grant
without an expiry. -/
def grantExpiring (now : Int) (info : Grant) : Bool :=
  info.expiresAt ≠ 0 && decide (info.expiresAt ≤ (now + grantRefreshLead) / 1000000000)

end Relay
