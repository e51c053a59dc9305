import AtreoAgent.Agent.Documents
import AtreoAgent.Codec.Base64
import AtreoAgent.Net.HostPort
import AtreoAgent.Relay.Frame
import AtreoAgent.Relay.Grant

/-! The control connection to a relay (`authenticate`, and `runSession` up to the ready state). The
relay answers the grant with a nonce, and the agent signs the nonce together with its own id
and the host that the grant names. -/
namespace Relay

open Codec Json

structure CtrlMsg where
  type : String
  payload : Bytes
  deriving DecidableEq, Repr

structure ReadyPayload where
  publicHost : String
  dataPort : Int
  ingestPort : Int
  sessionToken : String
  deriving DecidableEq, Repr

/-- What the agent writes. -/
inductive Written where
  | hello (grant : SignedGrant)
  | challengeResp (signature : String)
  deriving DecidableEq, Repr

/-- What comes of the two writes and the two reads of a handshake. -/
structure Conversation where
  helloWritten : Bool
  challenge : Option CtrlMsg
  respWritten : Bool
  ready : Option CtrlMsg
  deriving DecidableEq, Repr

inductive AuthError where
  | write
  | read
  /-- `relay rejected hello: …` -/
  | rejectedHello (payload : Bytes)
  /-- `expected relay:challenge, got …` -/
  | expectedChallenge (got : String)
  | challengePayload
  | transcript
  /-- `relay rejected challenge: …` -/
  | rejectedChallenge (payload : Bytes)
  /-- `expected relay:ready, got …` -/
  | expectedReady (got : String)
  | readyPayload
  deriving DecidableEq, Repr

def readNonce (payload : Bytes) : Option String :=
  (unmarshal [("nonce", .leaf .text)] payload).map fun es => finalText (storesAt ["nonce"] es)

def readReady (payload : Bytes) : Option ReadyPayload :=
  (unmarshal [("publicHost", .leaf .text), ("dataPort", .leaf .int), ("ingestPort", .leaf .int),
    ("sessionToken", .leaf .text)] payload).map fun es =>
      { publicHost := finalText (storesAt ["publicHost"] es)
        dataPort := finalInt (storesAt ["dataPort"] es)
        ingestPort := finalInt (storesAt ["ingestPort"] es)
        sessionToken := finalText (storesAt ["sessionToken"] es) }

/-- The bytes that are signed for a nonce. -/
def challengeBytes (info : Grant) (nonce : String) : Option Bytes :=
  (Canonjson.marshal (.obj (Documents.relayTranscript info.deviceID nonce info.relayHost))).toOption

/-- The nonce of the relay's first message. -/
def readChallenge : Option CtrlMsg → Except AuthError String
  | none => .error .read
  | some msg =>
      if msg.type = "relay:error" then .error (.rejectedHello msg.payload)
      else if msg.type ≠ "relay:challenge" then .error (.expectedChallenge msg.type)
      else
        match readNonce msg.payload with
        | none => .error .challengePayload
        | some nonce => .ok nonce

/-- The relay's second message. -/
def readReadyMsg : Option CtrlMsg → Except AuthError ReadyPayload
  | none => .error .read
  | some msg =>
      if msg.type = "relay:error" then .error (.rejectedChallenge msg.payload)
      else if msg.type ≠ "relay:ready" then .error (.expectedReady msg.type)
      else
        match readReady msg.payload with
        | none => .error .readyPayload
        | some ready => .ok ready

/-- What the agent wrote, and the outcome. -/
def authenticate (sign : Bytes → String) (sg : SignedGrant) (info : Grant) (c : Conversation) :
    List Written × Except AuthError ReadyPayload :=
  if c.helloWritten = false then ([.hello sg], .error .write)
  else
    match readChallenge c.challenge with
    | .error e => ([.hello sg], .error e)
    | .ok nonce =>
        match challengeBytes info nonce with
        | none => ([.hello sg], .error .transcript)
        | some transcript =>
            ([.hello sg, .challengeResp (sign transcript)],
              if c.respWritten = false then .error .write else readReadyMsg c.ready)

theorem readChallenge_eq_ok {m : Option CtrlMsg} {nonce : String} (h : readChallenge m = .ok nonce) :
    ∃ msg, m = some msg ∧ msg.type = "relay:challenge" ∧ readNonce msg.payload = some nonce := by
  unfold readChallenge at h
  split at h
  · cases h
  next msg =>
    split_ifs at h with hError hType
    split at h
    · cases h
    next n hNonce =>
      cases h
      exact ⟨msg, rfl, not_not.mp hType, hNonce⟩

/-- The relay's first message carries the nonce, and these are the bytes signed for it. -/
def Challenged (info : Grant) (c : Conversation) (nonce : String) (transcript : Bytes) : Prop :=
  ∃ msg, c.challenge = some msg ∧ msg.type = "relay:challenge" ∧
    readNonce msg.payload = some nonce ∧ challengeBytes info nonce = some transcript

/-- Either the agent gets no further than the hello, or it has answered a challenge. -/
theorem authenticate_cases (sign : Bytes → String) (sg : SignedGrant) (info : Grant)
    (c : Conversation) :
    ((authenticate sign sg info c).1 = [.hello sg] ∧ ∃ e, (authenticate sign sg info c).2 = .error e) ∨
      ∃ nonce transcript, Challenged info c nonce transcript ∧
        (authenticate sign sg info c).1 = [.hello sg, .challengeResp (sign transcript)] := by
  unfold authenticate
  split
  · exact .inl ⟨rfl, _, rfl⟩
  · split
    next e _ => exact .inl ⟨rfl, e, rfl⟩
    next nonce hNonce =>
      obtain ⟨msg, hMsg, hType, hRead⟩ := readChallenge_eq_ok hNonce
      split
      · exact .inl ⟨rfl, _, rfl⟩
      next transcript hBytes =>
        exact .inr ⟨nonce, transcript, ⟨msg, hMsg, hType, hRead, hBytes⟩, rfl⟩

/-- Nothing else that the agent signs has the bytes of a challenge. -/
theorem document_of_challengeBytes {sha256 : Bytes → Bytes} (hDigest : ∀ bs, (sha256 bs).length = 32)
    {info : Grant} {nonce : String} {transcript : Bytes}
    (h : challengeBytes info nonce = some transcript) {d : Documents.Document}
    (hSigned : d.signedBytes sha256 = some transcript) :
    d = .relayChallenge info.deviceID nonce info.relayHost := by
  have hThis : (Documents.Document.relayChallenge info.deviceID nonce info.relayHost).signedBytes sha256 =
      some transcript := by
    rw [← h, Documents.Document.signedBytes, challengeBytes]
  have hKind : d.kind = .relayChallenge := Documents.Document.kind_eq hDigest hSigned hThis
  rw [challengeBytes] at h
  cases d with
  | relayChallenge deviceID n relayHost =>
      rw [Documents.Document.signedBytes] at hSigned
      have hLookup := (Documents.written_relayChallenge (Fallible.toOption_eq_some.mp hSigned)).lookup_eq
        (Documents.written_relayChallenge (Fallible.toOption_eq_some.mp h))
      have hDevice : deviceID = info.deviceID := by
        simpa [Documents.relayTranscript, findLast, Doc.tree] using hLookup "deviceId"
      have hNonce : n = nonce := by
        simpa [Documents.relayTranscript, findLast, Doc.tree] using hLookup "nonce"
      have hHost : relayHost = info.relayHost := by
        simpa [Documents.relayTranscript, findLast, Doc.tree] using hLookup "relayHost"
      rw [hDevice, hNonce, hHost]
  | _ => cases hKind

/-- What a relay learns in a handshake, and when the handshake succeeds. -/
structure HandshakeSafe (sha256 : Bytes → Bytes) (sign : Bytes → String) (sg : SignedGrant)
    (info : Grant) (c : Conversation) : Prop where
  /-- There is at most one signature, and it is for the nonce of this relay. -/
  signature : ∀ sig, .challengeResp sig ∈ (authenticate sign sg info c).1 →
    (authenticate sign sg info c).1 = [.hello sg, .challengeResp sig] ∧
      ∃ nonce transcript, Challenged info c nonce transcript ∧ sig = sign transcript
  /-- A session is ready only after the signature. -/
  ready : ∀ r, (authenticate sign sg info c).2 = .ok r →
    ∃ sig, .challengeResp sig ∈ (authenticate sign sg info c).1
  /-- What was signed serves for no other nonce, device or relay, nor as another document. -/
  bound : ∀ nonce transcript, Challenged info c nonce transcript → ∀ d : Documents.Document,
    d.signedBytes sha256 = some transcript → d = .relayChallenge info.deviceID nonce info.relayHost

theorem handshake_safe {sha256 : Bytes → Bytes} (hDigest : ∀ bs, (sha256 bs).length = 32)
    (sign : Bytes → String) (sg : SignedGrant) (info : Grant) (c : Conversation) :
    HandshakeSafe sha256 sign sg info c := by
  have hBound : ∀ nonce transcript, Challenged info c nonce transcript → ∀ d : Documents.Document,
      d.signedBytes sha256 = some transcript →
        d = .relayChallenge info.deviceID nonce info.relayHost := by
    rintro nonce transcript ⟨msg, _, _, _, hBytes⟩ d hSigned
    exact document_of_challengeBytes hDigest hBytes hSigned
  rcases authenticate_cases sign sg info c with ⟨hWritten, e, hError⟩ | ⟨nonce, transcript, hAsked, hWritten⟩
  · refine ⟨fun sig hSig => ?_, fun r hReady => ?_, hBound⟩
    · rw [hWritten] at hSig
      simp at hSig
    · rw [hError] at hReady
      cases hReady
  · refine ⟨fun sig hSig => ?_, fun r _ => ⟨sign transcript, ?_⟩, hBound⟩
    · rw [hWritten] at hSig
      obtain rfl : sig = sign transcript := by simpa using hSig
      exact ⟨hWritten, nonce, transcript, hAsked, rfl⟩
    · rw [hWritten]
      simp

def sampleSigned : SignedGrant where
  payload := utf8 "\x7b\"relayHost\":\"r\",\"relayPort\":1,\"controlUrl\":\"c\"\x7d"
  signature := ""

def sampleGrant : Grant :=
  { deviceID := "d", agentEd25519Pub := "", relayHost := "r", relayPort := 1, controlURL := "c"
    issuedAt := 0, expiresAt := 0 }

/-- A relay that asks for the nonce `n` and hangs up. -/
def sampleConversation : Conversation where
  helloWritten := true
  challenge := some ⟨"relay:challenge", utf8 "\x7b\"nonce\":\"n\"\x7d"⟩
  respWritten := true
  ready := none

theorem handshake_safe_sample :
    (authenticate (fun _ => "s") sampleSigned sampleGrant sampleConversation).1 =
        [.hello sampleSigned, .challengeResp "s"] ∧
      HandshakeSafe Documents.zeroDigest (fun _ => "s") sampleSigned sampleGrant sampleConversation :=
  ⟨by decide +kernel, handshake_safe (fun _ => List.length_replicate) _ _ _ _⟩

/-- What `runSession` finds before it runs the shim. -/
structure Connection where
  dialled : Bool
  conversation : Conversation
  /-- The ingest address resolves and a socket to it opens. -/
  resolved : Bool
  ingest : Bool
  deriving DecidableEq, Repr

/-- The host that the relay announces, or else that of the grant. -/
def ReadyPayload.host (ready : ReadyPayload) (info : Grant) : String :=
  if ready.publicHost = "" then info.relayHost else ready.publicHost

def ReadyPayload.token (ready : ReadyPayload) : Option Bytes :=
  (hexDecode (utf8 ready.sessionToken)).filter fun token => token.length = sessionTokenLen

/-- The endpoint for clients. -/
def ReadyPayload.endpoint (ready : ReadyPayload) (info : Grant) : String :=
  Net.joinHostPort (ready.host info) (toString ready.dataPort)

/-- `runSession` up to the ready state. -/
def Connection.open (sign : Bytes → String) (sg : SignedGrant) (info : Grant) (c : Connection) :
    Option ReadyPayload :=
  if c.dialled = false then none
  else
    match (authenticate sign sg info c.conversation).2 with
    | .error _ => none
    | .ok ready => if ready.token.isSome ∧ c.resolved ∧ c.ingest then some ready else none

end Relay
