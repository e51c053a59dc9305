import AtreoAgent.Acl.Store
import AtreoAgent.Tunnel.Payload
import AtreoAgent.WireGuard.Server

/-! Verification of signed messages (`verify.go` and the `require` functions of
`handler.go`). A signature is checked over the canonical bytes of the payload; a
command is also bound by its intent and, where it must be fresh, by its time. -/
namespace Tunnel

open Codec Atreolink Acl

/-- What the handlers take from outside: Ed25519 with the key pair of this agent,
SHA-256, the decoders of the standard library and the configuration. -/
structure Env where
  verify : PublicKey → Bytes → Bytes → Bool
  agentKey : PublicKey
  sign : Bytes → Bytes
  verify_sign : ∀ body, verify agentKey body (sign body) = true
  sign_size : ∀ body, (sign body).length = 64
  sha256 : Bytes → Bytes
  parseRFC3339 : String → Option Time
  /-- Scheme and host of a URL that parses. -/
  parseURL : String → Option (String × String)
  /-- `json.Unmarshal` into a byte slice, and into a device state. -/
  unmarshalBytes : Bytes → Option Bytes
  unmarshalDeviceState : Bytes → Option DeviceState
  gunzip : Bytes → Option Bytes
  deviceID : String
  tunnelHost : String
  relayEndpoint : Option String
  subnet : WireGuard.Subnet
  server : WireGuard.Server

inductive VerifyError where
  /-- `tunnel: state-changing message has no signerId/signature` -/
  | unsigned
  /-- `tunnel: unknown signer` -/
  | unknownSigner (signerID : String)
  /-- `decode signer pubkey for …` -/
  | signerKeyEncoding (signerID : String)
  /-- `signer pubkey for … wrong length` -/
  | signerKeyLength (signerID : String) (length : Nat)
  /-- `decode signature: …` -/
  | signatureEncoding
  /-- `canonicalize payload: …` -/
  | canonicalize (e : Canonjson.Error)
  /-- `tunnel: invalid envelope signature` -/
  | invalidSignature
  /-- `tunnel: signer is not an admin of this device` -/
  | notAdmin (signerID role : String)
  /-- `verify member envelope: signerId=…, expected …` -/
  | wrongSigner (signerID expected : String)
  /-- `tunnel: command intent mismatch: got …, expected …` -/
  | intentMismatch (got expected : String)
  /-- `tunnel: command timestamp out of window: skew …` -/
  | staleTimestamp (skew : Int)
  deriving DecidableEq, Repr

/-- The signature check both verifiers end with. -/
def checkSignature (env : Env) (msg : TunnelMessage) (pub : PublicKey) :
    Except VerifyError Unit :=
  match decode64 msg.signature with
  | none => .error .signatureEncoding
  | some sig =>
      match Canonjson.marshalRaw msg.payload with
      | .error e => .error (.canonicalize e)
      | .ok canon => if env.verify pub canon sig then .ok () else .error .invalidSignature

/-- `VerifyEnvelope`, with the lookup of base64 identity keys. -/
def verifyEnvelope (env : Env) (msg : TunnelMessage) (aclLookup : String → Option String) :
    Except VerifyError Unit :=
  if msg.signerID = "" ∨ msg.signature = "" then .error .unsigned
  else
    match aclLookup msg.signerID with
    | none => .error (.unknownSigner msg.signerID)
    | some pubB64 =>
        if pubB64 = "" then .error (.unknownSigner msg.signerID)
        else
          match decode64 pubB64 with
          | none => .error (.signerKeyEncoding msg.signerID)
          | some decoded =>
              if h : decoded.length = 32 then checkSignature env msg ⟨decoded, h⟩
              else .error (.signerKeyLength msg.signerID decoded.length)

def verifySignatureAgainst (env : Env) (msg : TunnelMessage) (pub : PublicKey) :
    Except VerifyError Unit :=
  if msg.signerID = "" ∨ msg.signature = "" then .error .unsigned
  else checkSignature env msg pub

/-- Who may have signed. -/
inductive CommandAuth where
  | admin
  | member (memberID : String)
  | memberOrAdmin (memberID : String)
  | attested (pubkey : PublicKey)

def aclLookup (store : Store) (memberID : String) : Option String :=
  (store.lookupByMemberID memberID).map (·.identityKey)

def requireAdmin (env : Env) (store : Store) (msg : TunnelMessage) : Except VerifyError Unit :=
  if msg.signerID = "" then .error .unsigned
  else
    match store.lookupByMemberID msg.signerID with
    | none => .error (.unknownSigner msg.signerID)
    | some entry =>
        if entry.isAdmin then verifyEnvelope env msg (aclLookup store)
        else .error (.notAdmin msg.signerID entry.role)

def requireMember (env : Env) (store : Store) (msg : TunnelMessage) (expectedMemberID : String) :
    Except VerifyError Unit :=
  if msg.signerID ≠ expectedMemberID then .error (.wrongSigner msg.signerID expectedMemberID)
  else verifyEnvelope env msg (aclLookup store)

def CommandAuth.verify (env : Env) (store : Store) (msg : TunnelMessage) :
    CommandAuth → Except VerifyError Unit
  | admin => requireAdmin env store msg
  | member memberID => requireMember env store msg memberID
  | memberOrAdmin memberID =>
      if msg.signerID = memberID then requireMember env store msg memberID
      else requireAdmin env store msg
  | attested pubkey => verifySignatureAgainst env msg pubkey

/-- Arithmetic of `int64`. -/
def wrap64 (n : Int) : Int := n.bmod (2 ^ 64)

/-- Seconds. -/
def commandTimestampSkew : Int := 120

def unix (t : Time) : Int := t / 1000000000

/-- The distance between now and the time of a command, as the code computes it. -/
def timestampSkew (now : Time) (ts : Int) : Int :=
  let skew := wrap64 (unix now - ts)
  if skew < 0 then wrap64 (-skew) else skew

def verifyCommand (env : Env) (store : Store) (now : Time) (msg : TunnelMessage)
    (auth : CommandAuth) (fields : CommandEnvelopeFields) (expectedIntent : String) :
    Except VerifyError Unit :=
  if fields.intent ≠ expectedIntent then .error (.intentMismatch fields.intent expectedIntent)
  else if commandTimestampSkew < timestampSkew now fields.timestamp then
    .error (.staleTimestamp (timestampSkew now fields.timestamp))
  else auth.verify env store msg

def verifyAuthorization (env : Env) (store : Store) (msg : TunnelMessage) (auth : CommandAuth)
    (fields : CommandEnvelopeFields) (expectedIntent : String) : Except VerifyError Unit :=
  if fields.intent ≠ expectedIntent then .error (.intentMismatch fields.intent expectedIntent)
  else auth.verify env store msg

variable {env : Env} {msg : TunnelMessage}

/-- An envelope that verifies is signed with the key its signer is listed with. -/
theorem verifyEnvelope_eq_ok {lookup : String → Option String}
    (h : verifyEnvelope env msg lookup = .ok ()) :
    ∃ b64 key, lookup msg.signerID = some b64 ∧ decodeEd25519 b64 = some key ∧
      checkSignature env msg key = .ok () := by
  unfold verifyEnvelope at h
  split at h
  · cases h
  · split at h
    · cases h
    next b64 hLookup =>
      split at h
      · cases h
      · split at h
        · cases h
        next decoded hDecode =>
          split at h
          next hSize =>
            refine ⟨b64, ⟨decoded, hSize⟩, hLookup, ?_, h⟩
            rw [decodeEd25519, hDecode, Option.bind_some, dif_pos hSize]
          · cases h

/-- A command that verifies has its intent, is fresh and comes from who may sign it. -/
theorem verifyCommand_eq_ok {store : Store} {now : Time} {auth : CommandAuth}
    {fields : CommandEnvelopeFields} {intent : String}
    (h : verifyCommand env store now msg auth fields intent = .ok ()) :
    fields.intent = intent ∧ timestampSkew now fields.timestamp ≤ commandTimestampSkew ∧
      auth.verify env store msg = .ok () := by
  unfold verifyCommand at h
  split at h
  · cases h
  next hIntent =>
    split at h
    · cases h
    next hFresh => exact ⟨not_not.mp hIntent, Int.not_lt.mp hFresh, h⟩

/-- The message is signed with the identity key in the member's row. -/
def SignedByMember (env : Env) (store : Store) (msg : TunnelMessage) (memberID : String) : Prop :=
  ∃ m key, store.lookupByMemberID memberID = some m ∧ decodeEd25519 m.identityKey = some key ∧
    checkSignature env msg key = .ok ()

/-- A command of a member is signed with the identity key in its row. -/
theorem signedByMember_of_verifyCommand {store : Store} {now : Time} {memberID : String}
    {fields : CommandEnvelopeFields} {intent : String}
    (h : verifyCommand env store now msg (.member memberID) fields intent = .ok ()) :
    SignedByMember env store msg memberID := by
  obtain ⟨_, _, hMember⟩ := verifyCommand_eq_ok h
  dsimp only [CommandAuth.verify, requireMember] at hMember
  split at hMember
  · cases hMember
  next hSigner =>
    obtain ⟨b64, key, hLookup, hKey, hSignature⟩ := verifyEnvelope_eq_ok hMember
    rw [not_not.mp hSigner] at hLookup
    obtain ⟨m, hm, rfl⟩ := Option.map_eq_some_iff.mp hLookup
    exact ⟨m, key, hm, hKey, hSignature⟩

end Tunnel
