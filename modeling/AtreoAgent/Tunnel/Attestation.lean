import AtreoAgent.Machine.Fallible
import AtreoAgent.Tunnel.Admittance

/-! The chain that admits a new member (`attestation.go`): the owner signs an invite
for this agent, and the key of the invite signs the identity key of the member. -/
namespace Tunnel

open Codec Json Atreolink Fallible

/-- The first link of the chain that does not hold. -/
inductive AttestationError where
  /-- `attestation: non-owner member has no joinAttestation` -/
  | missing
  /-- `attestation: invitePayload malformed` -/
  | payload
  /-- `attestation: ownerSig over invitePayload is invalid` -/
  | ownerSig
  /-- `attestation: invitePayload has expired` -/
  | expired
  /-- `attestation: this NAS has no identity key to scope the invite against` -/
  | nasKeyUnknown
  /-- `attestation: acceptanceSig is invalid` -/
  | acceptanceSig
  deriving DecidableEq, Repr

/-- What the owner signs. The invite is for one agent, and `invitePub` is the key that may name the
member. -/
structure InvitePayload where
  inviteID : String
  deviceID : String
  nasPubkey : String
  allowedAppIDs : Option (List String)
  expiresAt : String
  tokenHash : String
  invitePub : String
  deriving DecidableEq, Repr

/-- The members that decoding looks at. -/
def inviteSchema : Schema :=
  [("inviteId", .leaf .text), ("deviceId", .leaf .text), ("nasPubkey", .leaf .text),
    ("allowedAppIds", .leaf .texts), ("expiresAt", .leaf .text), ("tokenHash", .leaf .text),
    ("invitePub", .leaf .text)]

def InvitePayload.read (es : List Event) : InvitePayload :=
  { inviteID := textAt es ["inviteId"]
    deviceID := textAt es ["deviceId"]
    nasPubkey := textAt es ["nasPubkey"]
    allowedAppIDs := textsAt es ["allowedAppIds"]
    expiresAt := textAt es ["expiresAt"]
    tokenHash := textAt es ["tokenHash"]
    invitePub := textAt es ["invitePub"] }

def InvitePayload.unmarshal (bs : Bytes) : Option InvitePayload :=
  (Json.unmarshal inviteSchema bs).map read

/-- Five minutes. -/
def inviteExpirySkew : Time := 300000000000

/-- A lapsed invite is refused; one without an end never lapses. -/
def checkExpiry (env : Env) (expiresAt : String) (now : Time) : Except AttestationError Unit :=
  if expiresAt = "" then .ok ()
  else do
    let exp ← require .payload (env.parseRFC3339 expiresAt)
    ensure .expired (now ≤ exp + inviteExpirySkew)

/-- The signature of the owner is checked over the canonical payload before anything is read from
it. The key of the invite signs the raw bytes of the identity key. The payload is returned for
the apps that the owner has allowed. -/
def verifyJoinAttestation (env : Env) (member : MemberACLEntry) (ownerPub : Option PublicKey)
    (expectedNASPubkey : String) (now : Time) : Except AttestationError InvitePayload := do
  let att ← require .missing member.joinAttestation
  ensure .missing (att.invitePayload ≠ "" ∧ att.ownerSig ≠ "" ∧ att.acceptanceSig ≠ "")
  let payloadBytes ← require .payload (decode64 att.invitePayload)
  let canon ← require .payload (Canonjson.marshalRaw payloadBytes).toOption
  let ownerSig ← require .ownerSig (decode64 att.ownerSig)
  let owner ← require .ownerSig ownerPub
  ensure .ownerSig (env.verify owner canon ownerSig)
  let inv ← require .payload (InvitePayload.unmarshal payloadBytes)
  ensure .payload (inv.invitePub ≠ "")
  checkExpiry env inv.expiresAt now
  ensure .nasKeyUnknown (expectedNASPubkey ≠ "")
  ensure .payload (inv.nasPubkey ≠ "")
  ensure .payload (inv.nasPubkey = expectedNASPubkey)
  let invitePub ← require .payload (decodeEd25519 inv.invitePub)
  let memberPub ← require .payload (decodeEd25519 member.identityKey)
  let acceptanceSig ← require .acceptanceSig (decode64 att.acceptanceSig)
  ensure .acceptanceSig (env.verify invitePub memberPub.bytes acceptanceSig)
  .ok inv

/-- The invite is signed by the owner, and the identity key by the key of the invite. -/
def InvitedBy (env : Env) (ownerPub : PublicKey) (att : JoinAttestation) (identityKey : String) :
    Prop :=
  ∃ payload canon ownerSig, decode64 att.invitePayload = some payload ∧
    Canonjson.marshalRaw payload = .ok canon ∧ decode64 att.ownerSig = some ownerSig ∧
    env.verify ownerPub canon ownerSig = true ∧
    ∃ inv invitePub memberPub acceptanceSig, InvitePayload.unmarshal payload = some inv ∧
      decodeEd25519 inv.invitePub = some invitePub ∧ decodeEd25519 identityKey = some memberPub ∧
      decode64 att.acceptanceSig = some acceptanceSig ∧
      env.verify invitePub memberPub.bytes acceptanceSig = true

theorem invitedBy_of_verifyJoinAttestation {env : Env} {member : MemberACLEntry}
    {att : JoinAttestation} {ownerPub : PublicKey} {nasPubkey : String} {now : Time}
    {inv : InvitePayload} (hAtt : member.joinAttestation = some att)
    (h : verifyJoinAttestation env member (some ownerPub) nasPubkey now = .ok inv) :
    InvitedBy env ownerPub att member.identityKey := by
  unfold verifyJoinAttestation at h
  rw [hAtt] at h
  obtain ⟨_, ⟨⟩, h⟩ := bind_eq_ok.mp h
  obtain ⟨_, _, h⟩ := bind_eq_ok.mp h
  obtain ⟨payload, hPayload, h⟩ := bind_eq_ok.mp h
  obtain ⟨canon, hCanon, h⟩ := bind_eq_ok.mp h
  obtain ⟨ownerSig, hOwnerSig, h⟩ := bind_eq_ok.mp h
  obtain ⟨_, ⟨⟩, h⟩ := bind_eq_ok.mp h
  obtain ⟨_, hSigned, h⟩ := bind_eq_ok.mp h
  obtain ⟨invite, hInvite, h⟩ := bind_eq_ok.mp h
  obtain ⟨_, _, h⟩ := bind_eq_ok.mp h
  obtain ⟨_, _, h⟩ := bind_eq_ok.mp h
  obtain ⟨_, _, h⟩ := bind_eq_ok.mp h
  obtain ⟨_, _, h⟩ := bind_eq_ok.mp h
  obtain ⟨_, _, h⟩ := bind_eq_ok.mp h
  obtain ⟨invitePub, hInvitePub, h⟩ := bind_eq_ok.mp h
  obtain ⟨memberPub, hMemberPub, h⟩ := bind_eq_ok.mp h
  obtain ⟨acceptanceSig, hAcceptance, h⟩ := bind_eq_ok.mp h
  obtain ⟨_, hAccepted, _⟩ := bind_eq_ok.mp h
  exact ⟨payload, canon, ownerSig, require_eq_ok.mp hPayload,
    toOption_eq_some.mp (require_eq_ok.mp hCanon), require_eq_ok.mp hOwnerSig,
    ensure_eq_ok.mp hSigned, invite, invitePub, memberPub, acceptanceSig, require_eq_ok.mp hInvite,
    require_eq_ok.mp hInvitePub, require_eq_ok.mp hMemberPub, require_eq_ok.mp hAcceptance,
    ensure_eq_ok.mp hAccepted⟩

end Tunnel
