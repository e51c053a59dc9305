import AtreoAgent.Atreolink.Types
import AtreoAgent.Json.Parse

/-! The JSON form of a device state, as `encoding/json` writes it; an absent pointer is
`null`. -/
namespace Atreolink

open Codec Json

/-- A pointer of the source. The agent reads `null` and a missing field alike, so that a field the
source leaves out when it is empty may be written here. -/
def optional {α : Type} (f : α → Doc) : Option α → Doc
  | none => .null
  | some a => f a

/-- A payload is embedded as the document it is. -/
def DSEnvelope.json (e : DSEnvelope) : Doc :=
  .obj [("payload", (parseWhole e.payload).getD .null), ("signerId", .str e.signerID),
    ("signature", .str e.signature)]

/-- The proof that the owner invited a member. All three fields are base64 text, also the
payload: its bytes are what was signed. -/
def JoinAttestation.json (a : JoinAttestation) : Doc :=
  .obj [("invitePayload", .str a.invitePayload), ("ownerSig", .str a.ownerSig),
    ("acceptanceSig", .str a.acceptanceSig)]

/-- The certificate the agent signed when it admitted a member. A nil list of apps is `null`,
which the signature does not tell from an empty one. -/
def AdmittanceCertificate.json (c : AdmittanceCertificate) : Doc :=
  .obj [("memberId", .str c.memberID), ("identityKey", .str c.identityKey),
    ("nasPubkey", .str c.nasPubkey), ("admittedAt", .num (Number.ofInt c.admittedAt)),
    ("attestationHash", .str c.attestationHash),
    ("initialAllowedAppIds", optional (fun ids => .arr (ids.map .str)) c.initialAllowedAppIDs),
    ("signature", .str c.signature)]

/-- The signed address that is handed back to an agent which has lost its state. -/
def TunnelIPLease.json (l : TunnelIPLease) : Doc :=
  .obj [("deviceId", .str l.deviceID), ("wgPublicKey", .str l.wgPublicKey),
    ("tunnelIp", .str l.tunnelIP), ("nasSignature", .str l.nasSignature)]

/-- A client of a member. Label, platform and endpoint type are covered by no signature. -/
def DSClient.json (c : DSClient) : Doc :=
  .obj [("wgPublicKey", .str c.wgPublicKey), ("label", .str c.label),
    ("platform", .str c.platform),
    ("registrationEnvelope", optional DSEnvelope.json c.registrationEnvelope),
    ("ipLease", optional TunnelIPLease.json c.ipLease), ("endpointType", .str c.endpointType)]

/-- A member with its clients. What the owner decided about it stands in the two envelopes, and
what admits it is the certificate or the invite. -/
def DSMember.json (m : DSMember) : Doc :=
  .obj [("memberId", .str m.memberID), ("userId", .str m.userID),
    ("memberName", .str m.memberName), ("email", .str m.email), ("role", .str m.role),
    ("identityKey", .str m.identityKey),
    ("joinAttestation", optional JoinAttestation.json m.joinAttestation),
    ("admittance", optional AdmittanceCertificate.json m.admittance),
    ("statusEnvelope", optional DSEnvelope.json m.statusEnvelope),
    ("permissionsEnvelope", optional DSEnvelope.json m.permissionsEnvelope),
    ("clients", .arr (m.clients.map DSClient.json))]

/-- An app, of which the agent uses the envelope alone: the fields beside it are not signed. -/
def DSApp.json (a : DSApp) : Doc := .obj [("envelope", optional DSEnvelope.json a.envelope)]

/-- The custom domain, with an envelope that is not a pointer. -/
def DSCustomDomain.json (d : DSCustomDomain) : Doc := .obj [("envelope", d.envelope.json)]

/-- The message `device:state`. The generation is not signed; it orders the states of a server. -/
def DeviceState.json (st : DeviceState) : Doc :=
  .obj [("deviceId", .str st.deviceID), ("generation", .num (Number.ofInt st.generation)),
    ("members", .arr (st.members.map DSMember.json)), ("apps", .arr (st.apps.map DSApp.json)),
    ("customDomain", optional DSCustomDomain.json st.customDomain)]

end Atreolink
