import AtreoAgent.Crypto.Transcript
import AtreoAgent.Tunnel.Agent
import AtreoAgent.Tunnel.Attestation

/-! The live commands of a client (`HandleChallenge`, `HandleProvision`). A challenge
issues a nonce; a provision consumes it, gives the client an address, a client record
and a peer, and signs the configuration it returns. -/
namespace Tunnel

open Codec Json Atreolink WireGuard Fallible

structure ChallengePayload extends CommandEnvelopeFields where
  membershipID : String
  memberID : String
  clientID : String
  clientKey : String
  identityKey : String
  deriving DecidableEq, Repr

structure ProvisionPayload extends CommandEnvelopeFields where
  memberID : String
  membershipID : String
  clientID : String
  clientKey : String
  nonce : String
  identityKey : String
  challengeCorrelID : String
  deriving DecidableEq, Repr

def challengeSchema : Schema := envelopeSchema ++
  [("membershipId", .leaf .text), ("memberId", .leaf .text), ("clientId", .leaf .text),
    ("publicKey", .leaf .text), ("identityKey", .leaf .text)]

def provisionSchema : Schema := envelopeSchema ++
  [("memberId", .leaf .text), ("membershipId", .leaf .text), ("clientId", .leaf .text),
    ("publicKey", .leaf .text), ("nonce", .leaf .text), ("identityKey", .leaf .text),
    ("challengeCorrelId", .leaf .text)]

def ChallengePayload.unmarshal (bs : Bytes) : Option ChallengePayload :=
  (Json.unmarshal challengeSchema bs).map fun es =>
    { readEnvelope es with
      membershipID := textAt es ["membershipId"]
      memberID := textAt es ["memberId"]
      clientID := textAt es ["clientId"]
      clientKey := textAt es ["publicKey"]
      identityKey := textAt es ["identityKey"] }

def ProvisionPayload.unmarshal (bs : Bytes) : Option ProvisionPayload :=
  (Json.unmarshal provisionSchema bs).map fun es =>
    { readEnvelope es with
      memberID := textAt es ["memberId"]
      membershipID := textAt es ["membershipId"]
      clientID := textAt es ["clientId"]
      clientKey := textAt es ["publicKey"]
      nonce := textAt es ["nonce"]
      identityKey := textAt es ["identityKey"]
      challengeCorrelID := textAt es ["challengeCorrelId"] }

inductive CommandError where
  /-- `unmarshal …` -/
  | payload
  /-- the command does not verify -/
  | command (e : VerifyError)
  /-- `generate nonce: …` -/
  | generateNonce
  /-- `tunnelHost not configured; cannot build signed endpoint` -/
  | tunnelHost
  /-- `no nonce found for correlation …` -/
  | noNonce (nonceKey : String)
  /-- `nonce expired` -/
  | nonceExpired
  /-- `provision nonce does not match challenge` -/
  | nonceMismatch
  /-- `allocate IP: …` -/
  | allocate
  /-- `AddClient failed: unknown member …` -/
  | unknownMember (memberID : String)
  /-- `add peer: …` -/
  | addPeer (e : PeerError)
  /-- `sign provision response: …` -/
  | transcript (e : Crypto.TranscriptError)
  /-- `mint ip lease: …` -/
  | lease (e : LeaseError)
  deriving DecidableEq, Repr

/-- The member a challenge is for. -/
def ChallengePayload.member (p : ChallengePayload) : String :=
  if p.membershipID = "" then p.memberID else p.membershipID

/-- `HandleChallenge`, given the outcome of the random source. The answer carries the
nonce. -/
def Agent.handleChallenge (env : Env) (now : Time) (random : Option String) (agent : Agent)
    (msg : TunnelMessage) : Agent × Except CommandError String :=
  match ChallengePayload.unmarshal msg.payload with
  | none => (agent, .error .payload)
  | some p =>
      match verifyCommand env agent.store now msg (.member p.member) p.toCommandEnvelopeFields
          ("wg:challenge-" ++ p.member ++ "-" ++ toString p.timestamp) with
      | .error e => (agent, .error (.command e))
      | .ok () =>
          match random with
          | none => (agent, .error .generateNonce)
          | some nonce =>
              ({ agent with
                nonces := agent.nonces.insert msg.correlationID
                  { nonce := nonce, memberID := p.member, clientKey := p.clientKey,
                    createdAt := now } }, .ok nonce)

/-- Five minutes. -/
def shortLivedTTL : Time := 300000000000

/-- A provision whose checks passed. -/
structure ProvisionRequest where
  memberID : String
  clientKey : String
  nonce : String
  deriving DecidableEq, Repr

def ProvisionPayload.nonceKey (p : ProvisionPayload) (correlationID : String) : String :=
  if p.challengeCorrelID = "" then correlationID else p.challengeCorrelID

/-- The checks of a provision against the nonce it names. -/
def checkNonce (env : Env) (now : Time) (store : Acl.Store) (msg : TunnelMessage)
    (p : ProvisionPayload) (entry : NonceEntry) : Except CommandError ProvisionRequest := do
  ensure .nonceExpired (now - entry.createdAt ≤ shortLivedTTL)
  ensure .nonceMismatch (p.nonce = entry.nonce)
  (verifyCommand env store now msg (.member entry.memberID) p.toCommandEnvelopeFields
    ("wg:provision-" ++ entry.memberID ++ "-" ++ p.clientID ++ "-" ++ p.nonce ++ "-" ++
      toString p.timestamp)).mapError .command
  .ok {
    memberID := entry.memberID
    clientKey := if p.clientKey = "" then entry.clientKey else p.clientKey
    nonce := entry.nonce }

/-- A nonce is used up even when a later check fails. -/
def Agent.checkProvision (env : Env) (now : Time) (agent : Agent) (msg : TunnelMessage) :
    Agent × Except CommandError ProvisionRequest :=
  if env.tunnelHost = "" then (agent, .error .tunnelHost)
  else
    match ProvisionPayload.unmarshal msg.payload with
    | none => (agent, .error .payload)
    | some p =>
        let nonceKey := p.nonceKey msg.correlationID
        match agent.nonces.lookup nonceKey with
        | none => (agent, .error (.noNonce nonceKey))
        | some entry =>
            ({ agent with nonces := agent.nonces.erase nonceKey },
              checkNonce env now agent.store msg p entry)

/-- Allocate an address, add the client record, install the peer. A failure undoes the
steps before it. -/
def Agent.addClientPeer (env : Env) (exec : List String → Bool) (agent : Agent)
    (req : ProvisionRequest) : Agent × Except CommandError String :=
  match agent.allocator.allocate env.subnet req.clientKey with
  | none => (agent, .error .allocate)
  | some (allocator, tunnelIP) =>
      let record : ClientRecord :=
        { wgPublicKey := req.clientKey, tunnelIP := tunnelIP,
          tunnelIPv6 := env.server.tunnelIPv6 tunnelIP }
      match agent.store.addClient req.memberID record with
      | (store, false) =>
          ({ agent with store := store, allocator := allocator.release req.clientKey },
            .error (.unknownMember req.memberID))
      | (store, true) =>
          match env.server.addPeer exec agent.peers req.clientKey tunnelIP with
          | .error e =>
              ({ agent with
                store := (store.removeClient req.memberID req.clientKey).1
                allocator := allocator.release req.clientKey }, .error (.addPeer e))
          | .ok peers =>
              ({ agent with store := store, allocator := allocator, peers := peers }, .ok tunnelIP)

/-- Seconds. -/
def wgQuickPersistentKeepalive : Int := 25

structure ProvisionResponsePayload where
  serverPublicKey : String
  tunnelIP : String
  tunnelIPv6 : String
  listenPort : Nat
  endpoint : String
  allowedIPs : String
  persistentKeepalive : Int
  nasSignature : String
  ipLease : TunnelIPLease
  deriving DecidableEq, Repr

/-- Where the client is to connect: the relay in relay mode. -/
def endpoint (env : Env) : String :=
  env.relayEndpoint.getD (env.tunnelHost ++ ":" ++ toString env.server.listenPort)

def signProvisionResponse (env : Env) (input : Crypto.ProvisionTranscriptInput) :
    Except CommandError String :=
  match Crypto.serverTranscriptV2 env.sha256 input with
  | .error e => .error (.transcript e)
  | .ok transcript => .ok (encode64 (env.sign transcript))

def provisionResponse (env : Env) (req : ProvisionRequest) (tunnelIP : String) :
    Except CommandError ProvisionResponsePayload := do
  let signature ← signProvisionResponse env
    { nonceHex := utf8 req.nonce
      clientPubKeyB64 := utf8 req.clientKey
      deviceID := utf8 env.deviceID
      serverPubKeyB64 := utf8 env.server.publicKey
      tunnelIP := utf8 tunnelIP
      tunnelIPv6 := utf8 (env.server.tunnelIPv6 tunnelIP)
      endpoint := utf8 (endpoint env)
      allowedIPs := utf8 env.server.allowedIPs
      persistentKeepalive := wgQuickPersistentKeepalive }
  let ipLease ← (mintTunnelIPLease env env.deviceID req.clientKey tunnelIP).mapError .lease
  .ok {
    serverPublicKey := env.server.publicKey
    tunnelIP := tunnelIP
    tunnelIPv6 := env.server.tunnelIPv6 tunnelIP
    listenPort := env.server.listenPort
    endpoint := endpoint env
    allowedIPs := env.server.allowedIPs
    persistentKeepalive := wgQuickPersistentKeepalive
    nasSignature := signature
    ipLease := ipLease }

/-- `HandleProvision`. A failure to sign comes after the peer is in place. -/
def Agent.handleProvision (env : Env) (now : Time) (exec : List String → Bool) (agent : Agent)
    (msg : TunnelMessage) : Agent × Except CommandError ProvisionResponsePayload :=
  match agent.checkProvision env now msg with
  | (agent, .error e) => (agent, .error e)
  | (agent, .ok req) =>
      match agent.addClientPeer env exec req with
      | (agent, .error e) => (agent, .error e)
      | (agent, .ok tunnelIP) => (agent, provisionResponse env req tunnelIP)

/-- `StartReapers`: of the keys the reaper comes by, those of abandoned nonces go. -/
def Agent.reapNonces (now : Time) (visited : List String) (agent : Agent) : Agent :=
  { agent with
    nonces := visited.foldl (fun nonces key =>
      match nonces.lookup key with
      | some entry => if entry.createdAt < now - shortLivedTTL then nonces.erase key else nonces
      | none => nonces) agent.nonces }

end Tunnel
