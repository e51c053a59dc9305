import AtreoAgent.Codec.Text
import AtreoAgent.Crypto.AgentAuth
import AtreoAgent.Crypto.Transcript
import AtreoAgent.Json.Size
import AtreoAgent.Tunnel.Admittance

/-! All that is signed with the agent's identity key. One key signs documents of several
packages, so a signature must not be usable for another kind of document. The kind can be
read off the signed bytes: from the start of the intent, from a field only that kind has,
or, for the digest of a transcript, from its length. -/
namespace Documents

open Codec Json Atreolink Crypto Tunnel

/-- The document `BuildAdmittanceMessage` signs, with the time of sending. -/
def admittanceMessage (deviceID : String) (cert : AdmittanceCertificate) (ts : Int) : Members :=
  [("cert", .obj [("memberId", .str cert.memberID), ("identityKey", .str cert.identityKey),
      ("nasPubkey", .str cert.nasPubkey), ("admittedAt", .num (Number.ofInt cert.admittedAt)),
      ("attestationHash", .str cert.attestationHash),
      ("initialAllowedAppIds", .arr ((cert.initialAllowedAppIDs.getD []).map .str)),
      ("signature", .str cert.signature)]),
    ("intent", .str ("member:admittance-" ++ deviceID ++ "-" ++ cert.memberID ++ "-" ++
      toString cert.admittedAt)),
    ("ts", .num (Number.ofInt ts))]

/-- The transcript the agent signs for a relay (`authenticate`). -/
def relayTranscript (deviceID nonce relayHost : String) : Members :=
  [("intent", .str "relay:challenge"), ("deviceId", .str deviceID), ("nonce", .str nonce),
    ("relayHost", .str relayHost)]

/-- The reply of the probe server to a ping. -/
def pingReply (deviceID nonce timestamp : String) : Members :=
  [("deviceId", .str deviceID), ("nonce", .str nonce), ("timestamp", .str timestamp)]

structure Candidate where
  kind : String
  host : String
  port : Int
  deriving DecidableEq, Repr

/-- The checks of `Build` on a candidate. -/
def Candidate.valid (c : Candidate) : Bool :=
  (c.kind = "lan" ∨ c.kind = "public4" ∨ c.kind = "public6") && c.host ≠ "" &&
    (0 < c.port ∧ c.port ≤ 65535)

def Candidate.json (c : Candidate) : Doc :=
  .obj [("kind", .str c.kind), ("host", .str c.host), ("port", .num (Number.ofInt c.port))]

def endpointsPayload (deviceID timestamp : String) (candidates : List Candidate) : Members :=
  [("deviceId", .str deviceID), ("timestamp", .str timestamp),
    ("candidates", .arr (candidates.map Candidate.json))]

/-- The bytes `Build` signs. -/
def buildEndpoints (deviceID timestamp : String) (candidates : List Candidate) : Option Bytes :=
  if deviceID = "" then none
  else if candidates.all Candidate.valid then
    (Canonjson.marshal (.obj (endpointsPayload deviceID timestamp candidates))).toOption
  else none

/-- The commands requests are signed for. -/
inductive AuthCommand where
  | deviceEndpoint | dnsPresent | dnsCleanup | notificationsSend
  deriving DecidableEq, Repr

def AuthCommand.intentPrefix : AuthCommand → String
  | deviceEndpoint => "device:endpoint"
  | dnsPresent => "dns:present"
  | dnsCleanup => "dns:cleanup"
  | notificationsSend => "notifications:send"

/-- What the agent may sign, with all that goes into it. -/
inductive Document where
  | certificate (cert : AdmittanceCertificate)
  | lease (deviceID wgPublicKey tunnelIP : String)
  | admittance (deviceID : String) (cert : AdmittanceCertificate) (ts : Int)
  | agentAuth (command : AuthCommand) (deviceID : String) (ts : Int) (body : Option Doc)
  | wsConnect (deviceID : String) (ts : Int)
  | relayChallenge (deviceID nonce relayHost : String)
  | ping (deviceID nonce timestamp : String)
  | endpoints (deviceID timestamp : String) (candidates : List Candidate)
  | transcript (input : ProvisionTranscriptInput)

inductive Kind where
  | certificate | lease | admittance | agentAuth (command : AuthCommand) | wsConnect
  | relayChallenge | ping | endpoints | transcript
  deriving DecidableEq

namespace Document

def kind : Document → Kind
  | certificate _ => .certificate
  | lease _ _ _ => .lease
  | admittance _ _ _ => .admittance
  | agentAuth command _ _ _ => .agentAuth command
  | wsConnect _ _ => .wsConnect
  | relayChallenge _ _ _ => .relayChallenge
  | ping _ _ _ => .ping
  | endpoints _ _ _ => .endpoints
  | transcript _ => .transcript

/-- The bytes the key is applied to, if the document is signed at all. -/
def signedBytes (sha256 : Bytes → Bytes) : Document → Option Bytes
  | certificate cert => (certSignedBytes cert).toOption
  | lease deviceID wgPublicKey tunnelIP => (leaseSignedBytes deviceID wgPublicKey tunnelIP).toOption
  | admittance deviceID cert ts =>
      (Canonjson.marshal (.obj (admittanceMessage deviceID cert ts))).toOption
  | agentAuth command deviceID ts body =>
      (signAgentAuth deviceID command.intentPrefix ts body).toOption
  | wsConnect deviceID ts => (signWSConnectAuth deviceID ts).toOption
  | relayChallenge deviceID nonce relayHost =>
      (Canonjson.marshal (.obj (relayTranscript deviceID nonce relayHost))).toOption
  | ping deviceID nonce timestamp =>
      (Canonjson.marshal (.obj (pingReply deviceID nonce timestamp))).toOption
  | endpoints deviceID timestamp candidates => buildEndpoints deviceID timestamp candidates
  | transcript input => (serverTranscriptV2 sha256 input).toOption

end Document

variable {a b : Kind} {ms : Members}

namespace Kind

/-- How the intent starts, for the kinds that have one. -/
def start : Kind → Option String
  | admittance => some "member:admittance-"
  | agentAuth command => some (command.intentPrefix ++ "-")
  | wsConnect => some "tunnel:connect-"
  | relayChallenge => some "relay:challenge"
  | certificate | lease | ping | endpoints | transcript => none

/-- A field that among the documents without intent only this kind has. -/
def field : Kind → String
  | certificate => "admittedAt"
  | lease => "tunnelIp"
  | ping => "nonce"
  | endpoints => "candidates"
  | _ => ""

/-- The fields that tell the documents without intent apart. -/
def fields : List String := ["admittedAt", "tunnelIp", "nonce", "candidates"]

/-- What is found under the names of an object marks it as being of this kind. -/
def Marks (kind : Kind) (lookup : String → Option Doc) : Prop :=
  match kind.start with
  | some start => ∃ rest, lookup "intent" = some (.str (start ++ rest))
  | none => lookup "intent" = none ∧ ∀ k ∈ fields, (lookup k).isSome = decide (k = kind.field)

def all : List Kind :=
  [certificate, lease, admittance, agentAuth .deviceEndpoint, agentAuth .dnsPresent,
    agentAuth .dnsCleanup, agentAuth .notificationsSend, wsConnect, relayChallenge, ping,
    endpoints, transcript]

theorem mem_all (kind : Kind) : kind ∈ all := by
  cases kind with
  | agentAuth command => cases command <;> decide
  | _ => decide

/-- No intent starts like that of another kind. -/
theorem separates_start :
    Separates fun kind : {kind : Kind // kind.start.isSome} => chars (kind.1.start.get kind.2) := by
  have hAll : ∀ a ∈ all, ∀ b ∈ all, ∀ s ∈ a.start, ∀ t ∈ b.start,
      chars s <+: chars t → a = b := by
    decide +kernel
  rintro ⟨a, ha⟩ ⟨b, hb⟩ h
  exact Subtype.ext (hAll a a.mem_all b b.mem_all _ (Option.get_mem ha) _ (Option.get_mem hb) h)

theorem eq_of_starts {s t : String} (ha : a.start = some s) (hb : b.start = some t) {x y : String}
    (h : s ++ x = t ++ y) : a = b := by
  have hTexts : chars s ++ chars x = chars t ++ chars y := by
    simpa [String.toList_append] using congrArg String.toList h
  have hSome : a.start.isSome := Option.isSome_of_mem ha
  have hSome' : b.start.isSome := Option.isSome_of_mem hb
  obtain ⟨hKind, -⟩ := separates_start.append_inj (a := ⟨a, hSome⟩) (b := ⟨b, hSome'⟩)
    (x := chars x) (y := chars y) (by simpa [ha, hb] using hTexts)
  exact congrArg Subtype.val hKind

/-- An object is marked as being of one kind only. -/
theorem Marks.eq {lookup : String → Option Doc} (ha : a.Marks lookup) (hb : b.Marks lookup) :
    a = b := by
  unfold Marks at ha hb
  cases hStart : a.start with
  | some s =>
      rw [hStart] at ha
      obtain ⟨x, hx⟩ := ha
      cases hStart' : b.start with
      | some t =>
          rw [hStart'] at hb
          obtain ⟨y, hy⟩ := hb
          rw [hx, Option.some.injEq, Doc.str.injEq] at hy
          exact eq_of_starts hStart hStart' hy
      | none =>
          rw [hStart'] at hb
          rw [hx] at hb
          exact nomatch hb.1
  | none =>
      rw [hStart] at ha
      cases hStart' : b.start with
      | some t =>
          rw [hStart'] at hb
          obtain ⟨y, hy⟩ := hb
          rw [hy] at ha
          exact nomatch ha.1
      | none =>
          rw [hStart'] at hb
          have hFields : ∀ k ∈ fields, decide (k = a.field) = decide (k = b.field) :=
            fun k hk => (ha.2 k hk).symm.trans (hb.2 k hk)
          have hAll : ∀ a ∈ all, ∀ b ∈ all, a.start = none → b.start = none →
              (∀ k ∈ fields, decide (k = a.field) = decide (k = b.field)) → a = b := by
            decide +kernel
          exact hAll a a.mem_all b b.mem_all hStart hStart' hFields

end Kind

/-- The bytes are those of an object that is marked as being of its kind, and are longer
than a digest. -/
structure Written (kind : Kind) (c : Bytes) (ms : Members) : Prop where
  shallow : (Doc.obj ms).height ≤ maxNestingDepth
  marshal : Canonjson.marshal (.obj ms) = .ok c
  marks : kind.Marks fun k => (findLast k ms).map Doc.tree
  long : 32 < c.length

/-- Some fields are enough to see that the text is longer than a digest. -/
theorem Written.of_picked {kind : Kind} {c : Bytes} (picked : Members)
    (hShallow : (Doc.obj ms).height ≤ maxNestingDepth) (h : Canonjson.marshal (.obj ms) = .ok c)
    (hMarks : kind.Marks fun k => (findLast k ms).map Doc.tree)
    (hNames : (picked.map Prod.fst).Nodup)
    (hPicked : ∀ p ∈ picked, (findLast p.1 ms).map Doc.tree = some p.2)
    (hLong : 31 ≤ (picked.map memberLeast).sum) : Written kind c ms := by
  refine ⟨hShallow, h, hMarks, ?_⟩
  have hText := sum_picked_le false hNames hPicked
  rw [← Canonjson.marshal_eq_ok hShallow h] at hText
  omega

section Written

variable {c : Bytes} {deviceID : String} {ts : Int}

theorem written_certificate {cert : AdmittanceCertificate} (h : certSignedBytes cert = .ok c) :
    ∃ ms, certBody cert = .obj ms ∧ Written .certificate c ms := by
  refine ⟨_, rfl, Written.of_picked [("attestationHash", .str cert.attestationHash),
    ("identityKey", .str cert.identityKey)] ?_ h ?_ (by simp) (by simp [findLast, Doc.tree]) ?_⟩
  · exact height_certBody cert
  · simp [Kind.Marks, Kind.start, Kind.fields, Kind.field, findLast]
  · simp only [List.map_cons, List.map_nil, List.sum_cons, memberLeast, Doc.least, List.sum_nil]
    simp
    omega

/-- The entries `leaseSignedBytes` signs. -/
def leaseEntries (deviceID wgPublicKey tunnelIP : String) : Members :=
  [("deviceId", .str deviceID), ("tunnelIp", .str tunnelIP), ("wgPublicKey", .str wgPublicKey)]

theorem written_lease {wgPublicKey tunnelIP : String}
    (h : leaseSignedBytes deviceID wgPublicKey tunnelIP = .ok c) :
    Written .lease c (leaseEntries deviceID wgPublicKey tunnelIP) := by
  refine Written.of_picked (leaseEntries deviceID wgPublicKey tunnelIP) ?_ h ?_
    (by simp [leaseEntries]) (by simp [leaseEntries, findLast, Doc.tree]) ?_
  · simp [leaseEntries, Doc.height, Doc.heightMembers, maxNestingDepth]
  · simp [Kind.Marks, Kind.start, Kind.fields, Kind.field, leaseEntries, findLast]
  · simp [leaseEntries, memberLeast, Doc.least]
    omega

theorem written_admittance {cert : AdmittanceCertificate}
    (h : Canonjson.marshal (.obj (admittanceMessage deviceID cert ts)) = .ok c) :
    Written .admittance c (admittanceMessage deviceID cert ts) := by
  refine Written.of_picked [("intent", .str ("member:admittance-" ++ deviceID ++ "-" ++
    cert.memberID ++ "-" ++ toString cert.admittedAt)), ("ts", .num (Number.ofInt ts))] ?_ h ?_
    (by simp) (by simp [admittanceMessage, findLast, Doc.tree]) ?_
  · simp [admittanceMessage, Doc.height, Doc.heightMembers, maxNestingDepth]
  · refine ⟨deviceID ++ "-" ++ cert.memberID ++ "-" ++ toString cert.admittedAt, ?_⟩
    simp [admittanceMessage, findLast, Doc.tree, String.append_assoc]
  · simp [memberLeast, Doc.least]
    omega

/-- The intent of a request marks it, whatever its body. -/
theorem written_request {kind : Kind} {intentPrefix : String}
    (hStart : kind.start = some (intentPrefix ++ "-"))
    (hShallow : (Doc.obj ms).height ≤ maxNestingDepth) (h : Canonjson.marshal (.obj ms) = .ok c)
    (hEntries : ∀ k ∈ reservedAuthPayloadKeys, findLast k ms =
      findLast k (authEntries deviceID (authIntent intentPrefix deviceID ts) ts)) :
    Written kind c ms := by
  have hIntent : authIntent intentPrefix deviceID ts =
      (intentPrefix ++ "-") ++ (deviceID ++ "-" ++ toString ts) := by
    simp only [authIntent, ← String.append_assoc]
  have hLookup : ∀ p ∈ authEntries deviceID (authIntent intentPrefix deviceID ts) ts,
      (findLast p.1 ms).map Doc.tree = some p.2 := by
    simp only [reservedAuthPayloadKeys, List.forall_mem_cons] at hEntries
    simp [authEntries, hEntries, findLast, Doc.tree]
  refine Written.of_picked _ hShallow h ?_ (by simp [authEntries]) hLookup ?_
  · unfold Kind.Marks
    rw [hStart]
    refine ⟨deviceID ++ "-" ++ toString ts, ?_⟩
    rw [← hIntent]
    exact hLookup ("intent", .str _) (by simp [authEntries])
  · rw [hIntent]
    simp [authEntries, memberLeast, Doc.least]
    omega

theorem written_agentAuth {command : AuthCommand} {body : Option Doc}
    (h : signAgentAuth deviceID command.intentPrefix ts body = .ok c) :
    ∃ ms, Written (.agentAuth command) c ms := by
  obtain ⟨ms, hShallow, hMarshal, hEntries⟩ := signAgentAuth_eq_ok h
  exact ⟨ms, written_request rfl hShallow hMarshal hEntries⟩

theorem written_wsConnect (h : signWSConnectAuth deviceID ts = .ok c) :
    ∃ ms, Written .wsConnect c ms := by
  refine ⟨_, written_request (by decide +kernel) ?_ h fun _ _ => rfl⟩
  simp [authEntries, Doc.height, Doc.heightMembers, maxNestingDepth]

theorem written_relayChallenge {nonce relayHost : String}
    (h : Canonjson.marshal (.obj (relayTranscript deviceID nonce relayHost)) = .ok c) :
    Written .relayChallenge c (relayTranscript deviceID nonce relayHost) := by
  refine Written.of_picked [("deviceId", .str deviceID), ("nonce", .str nonce),
    ("relayHost", .str relayHost)] ?_ h ?_ (by simp)
    (by simp [relayTranscript, findLast, Doc.tree]) ?_
  · simp [relayTranscript, Doc.height, Doc.heightMembers, maxNestingDepth]
  · exact ⟨"", by simp [relayTranscript, findLast, Doc.tree]⟩
  · simp [memberLeast, Doc.least]
    omega

theorem written_ping {nonce timestamp : String}
    (h : Canonjson.marshal (.obj (pingReply deviceID nonce timestamp)) = .ok c) :
    Written .ping c (pingReply deviceID nonce timestamp) := by
  refine Written.of_picked (pingReply deviceID nonce timestamp) ?_ h ?_
    (by simp [pingReply]) (by simp [pingReply, findLast, Doc.tree]) ?_
  · simp [pingReply, Doc.height, Doc.heightMembers, maxNestingDepth]
  · simp [Kind.Marks, Kind.start, Kind.fields, Kind.field, pingReply, findLast]
  · simp [pingReply, memberLeast, Doc.least]
    omega

theorem written_endpoints {timestamp : String} {candidates : List Candidate}
    (h : buildEndpoints deviceID timestamp candidates = some c) :
    Written .endpoints c (endpointsPayload deviceID timestamp candidates) := by
  have hMarshal : Canonjson.marshal (.obj (endpointsPayload deviceID timestamp candidates)) =
      .ok c := by
    unfold buildEndpoints at h
    split at h
    · cases h
    · split at h
      · exact Fallible.toOption_eq_some.mp h
      · cases h
  have hItems : Doc.heightItems (candidates.map Candidate.json) ≤ 1 := by
    refine Doc.heightItems_le fun d hd => ?_
    obtain ⟨candidate, _, rfl⟩ := List.mem_map.mp hd
    simp [Candidate.json, Doc.height, Doc.heightMembers]
  refine Written.of_picked [("deviceId", .str deviceID), ("timestamp", .str timestamp),
    ("candidates", (Doc.arr (candidates.map Candidate.json)).tree)] ?_ hMarshal ?_ (by simp)
    (by simp [endpointsPayload, findLast, Doc.tree]) ?_
  · simp only [endpointsPayload, Doc.height, Doc.heightMembers, maxNestingDepth]
    omega
  · simp [Kind.Marks, Kind.start, Kind.fields, Kind.field, endpointsPayload, findLast]
  · simp [memberLeast, Doc.least, tree_arr]
    omega

end Written

/-- Every signed document but the digest is an object that is marked as being of its
kind. -/
theorem Document.exists_written {sha256 : Bytes → Bytes} {d : Document} {c : Bytes}
    (h : d.signedBytes sha256 = some c) (hKind : d.kind ≠ .transcript) :
    ∃ ms, Written d.kind c ms := by
  unfold signedBytes at h
  cases d with
  | certificate cert =>
      obtain ⟨ms, _, hWritten⟩ := written_certificate (Fallible.toOption_eq_some.mp h)
      exact ⟨ms, hWritten⟩
  | lease deviceID wgPublicKey tunnelIP => exact ⟨_, written_lease (Fallible.toOption_eq_some.mp h)⟩
  | admittance deviceID cert ts => exact ⟨_, written_admittance (Fallible.toOption_eq_some.mp h)⟩
  | agentAuth command deviceID ts body => exact written_agentAuth (Fallible.toOption_eq_some.mp h)
  | wsConnect deviceID ts => exact written_wsConnect (Fallible.toOption_eq_some.mp h)
  | relayChallenge deviceID nonce relayHost =>
      exact ⟨_, written_relayChallenge (Fallible.toOption_eq_some.mp h)⟩
  | ping deviceID nonce timestamp => exact ⟨_, written_ping (Fallible.toOption_eq_some.mp h)⟩
  | endpoints deviceID timestamp candidates => exact ⟨_, written_endpoints h⟩
  | transcript input => exact absurd rfl hKind

/-- Objects with the same canonical bytes hold the same under every name. -/
theorem Written.lookup_eq {c : Bytes} {ns : Members} (ha : Written a c ms) (hb : Written b c ns)
    (k : String) : (findLast k ms).map Doc.tree = (findLast k ns).map Doc.tree :=
  Canonjson.lookup_eq_of_marshal_eq ha.shallow hb.shallow ha.marshal hb.marshal k

theorem Written.kind_eq {c : Bytes} {ns : Members} (ha : Written a c ms) (hb : Written b c ns) :
    a = b := by
  have hMarks := ha.marks
  rw [funext (ha.lookup_eq hb)] at hMarks
  exact hMarks.eq hb.marks

section Digest

variable {sha256 : Bytes → Bytes} (hDigest : ∀ bs, (sha256 bs).length = 32)
include hDigest

theorem Document.length_transcript {d : Document} {c : Bytes} (h : d.signedBytes sha256 = some c)
    (hKind : d.kind = .transcript) : c.length = 32 := by
  cases d with
  | transcript input =>
      have hOk := Fallible.toOption_eq_some.mp h
      rw [serverTranscriptV2] at hOk
      cases hHash : input.hashInput with
      | error e =>
          rw [hHash] at hOk
          cases hOk
      | ok bs =>
          rw [hHash] at hOk
          cases hOk
          exact hDigest bs
  | _ => cases hKind

theorem Document.kind_eq {a b : Document} {c : Bytes} (ha : a.signedBytes sha256 = some c)
    (hb : b.signedBytes sha256 = some c) : a.kind = b.kind := by
  by_cases hKind : a.kind = .transcript <;> by_cases hKind' : b.kind = .transcript
  · rw [hKind, hKind']
  · obtain ⟨_, hWritten⟩ := exists_written hb hKind'
    have hLong := hWritten.long
    have hShort := length_transcript hDigest ha hKind
    omega
  · obtain ⟨_, hWritten⟩ := exists_written ha hKind
    have hLong := hWritten.long
    have hShort := length_transcript hDigest hb hKind'
    omega
  · obtain ⟨_, hWritten⟩ := exists_written ha hKind
    obtain ⟨_, hWritten'⟩ := exists_written hb hKind'
    exact hWritten.kind_eq hWritten'

end Digest

/-- The fields of a certificate that are signed; a missing list of apps counts as empty. -/
def SameCertificate (c d : AdmittanceCertificate) : Prop :=
  c.memberID = d.memberID ∧ c.identityKey = d.identityKey ∧ c.nasPubkey = d.nasPubkey ∧
    c.admittedAt = d.admittedAt ∧ c.attestationHash = d.attestationHash ∧
    c.initialAllowedAppIDs.getD [] = d.initialAllowedAppIDs.getD []

theorem sameCertificate_of_signedBytes {c d : AdmittanceCertificate} {body : Bytes}
    (hc : certSignedBytes c = .ok body) (hd : certSignedBytes d = .ok body) :
    SameCertificate c d := by
  obtain ⟨ms, hMs, hWritten⟩ := written_certificate hc
  obtain ⟨ns, hNs, hWritten'⟩ := written_certificate hd
  cases hMs
  cases hNs
  have hLookup := hWritten.lookup_eq hWritten'
  have hTime : Number.ofInt c.admittedAt = Number.ofInt d.admittedAt := by
    simpa [findLast, Doc.tree] using hLookup "admittedAt"
  have hApps : (c.initialAllowedAppIDs.getD []).map Doc.str =
      (d.initialAllowedAppIDs.getD []).map Doc.str := by
    simpa [findLast, Doc.tree, treeItems_eq_map, Function.comp_def] using hLookup "initialAllowedAppIds"
  refine ⟨by simpa [findLast, Doc.tree] using hLookup "memberId",
    by simpa [findLast, Doc.tree] using hLookup "identityKey",
    by simpa [findLast, Doc.tree] using hLookup "nasPubkey",
    itoa_injective (congrArg Number.lit hTime),
    by simpa [findLast, Doc.tree] using hLookup "attestationHash", ?_⟩
  exact List.map_injective_iff.mpr (fun _ _ => Doc.str.inj) hApps

theorem lease_eq_of_signedBytes {deviceID wgPublicKey tunnelIP deviceID' wgPublicKey' tunnelIP' :
    String} {body : Bytes} (h : leaseSignedBytes deviceID wgPublicKey tunnelIP = .ok body)
    (h' : leaseSignedBytes deviceID' wgPublicKey' tunnelIP' = .ok body) :
    deviceID = deviceID' ∧ wgPublicKey = wgPublicKey' ∧ tunnelIP = tunnelIP' := by
  have hLookup := (written_lease h).lookup_eq (written_lease h')
  exact ⟨by simpa [leaseEntries, findLast, Doc.tree] using hLookup "deviceId",
    by simpa [leaseEntries, findLast, Doc.tree] using hLookup "wgPublicKey",
    by simpa [leaseEntries, findLast, Doc.tree] using hLookup "tunnelIp"⟩

/-- The documents agree on what is signed, if both are certificates or both are leases. -/
def SameFields : Document → Document → Prop
  | .certificate c, .certificate d => SameCertificate c d
  | .lease deviceID wgPublicKey tunnelIP, .lease deviceID' wgPublicKey' tunnelIP' =>
      deviceID = deviceID' ∧ wgPublicKey = wgPublicKey' ∧ tunnelIP = tunnelIP'
  | _, _ => True

/-- The bytes that are signed determine the kind of the document, and for certificates and
leases every signed field. -/
theorem signed_bytes_determine_kind {sha256 : Bytes → Bytes}
    (hDigest : ∀ bs, (sha256 bs).length = 32) {a b : Document} {c : Bytes}
    (ha : a.signedBytes sha256 = some c) (hb : b.signedBytes sha256 = some c) :
    a.kind = b.kind ∧ SameFields a b := by
  refine ⟨Document.kind_eq hDigest ha hb, ?_⟩
  unfold SameFields
  split
  · exact sameCertificate_of_signedBytes (Fallible.toOption_eq_some.mp ha)
      (Fallible.toOption_eq_some.mp hb)
  · exact lease_eq_of_signedBytes (Fallible.toOption_eq_some.mp ha)
      (Fallible.toOption_eq_some.mp hb)
  · trivial

def sampleCertificate (apps : Option (List String)) : AdmittanceCertificate :=
  { memberID := "b", identityKey := "i", nasPubkey := "n", admittedAt := 7,
    attestationHash := "h", initialAllowedAppIDs := apps, signature := "" }

def zeroDigest (_ : Bytes) : Bytes := List.replicate 32 0

/-- A certificate without a list of apps is signed like one with an empty list. -/
theorem missing_apps_signed_as_empty :
    ∃ c, (Document.certificate (sampleCertificate none)).signedBytes zeroDigest = some c ∧
      (Document.certificate (sampleCertificate (some []))).signedBytes zeroDigest = some c ∧
      (Document.certificate (sampleCertificate none)).kind =
        (Document.certificate (sampleCertificate (some []))).kind ∧
      SameFields (.certificate (sampleCertificate none))
        (.certificate (sampleCertificate (some []))) := by
  have hBytes :
      (Document.certificate (sampleCertificate none)).signedBytes zeroDigest =
        some ((certBody (sampleCertificate none)).print false) ∧
      (Document.certificate (sampleCertificate (some []))).signedBytes zeroDigest =
        some ((certBody (sampleCertificate none)).print false) := by
    decide +kernel
  exact ⟨_, hBytes.1, hBytes.2,
    signed_bytes_determine_kind (fun _ => List.length_replicate) hBytes.1 hBytes.2⟩

end Documents
