import AtreoAgent.Machine.Fallible
import AtreoAgent.Tunnel.Sample
import AtreoAgent.Tunnel.SignedMeaning

/-! Decoding the approval of a pairing (`pair_approval.go`). The owner encrypts a document
under a key derived from the pair token and signs it; the document names the pairing session
and the key of the server, which the owner attests. A document that names no session passes
the check of the session. -/
namespace Tunnel

open Codec Json Atreolink Fallible

/-- HKDF with SHA-256, AES-256-GCM without associated data, and Ed25519. -/
structure PairCrypto where
  /-- The 32-byte key for a secret and an info string. -/
  hkdf : Bytes → Bytes → Bytes
  gcmOpen : Bytes → Bytes → Bytes → Option Bytes
  verify : PublicKey → Bytes → Bytes → Bool

structure PairApprovalBlob where
  nonce : String
  ciphertext : String
  deriving DecidableEq, Repr

structure ApprovalInner where
  pairSessionID : String
  ownerIdentityPubkey : String
  approvedAt : String
  nasPubkey : String
  nasAttestationSig : String
  deriving DecidableEq, Repr

inductive PairApprovalError where
  /-- `pair approval: pairToken is empty` -/
  | emptyToken
  /-- `pair approval: decode nonce: …` -/
  | nonceEncoding
  /-- `pair approval: decode ciphertext: …` -/
  | ciphertextEncoding
  /-- `pair approval: nonce wrong size: …` -/
  | nonceSize (size : Nat)
  /-- `pair approval: decrypt failed` -/
  | decrypt
  /-- `pair approval: plaintext too short: …` -/
  | tooShort (size : Nat)
  /-- `pair approval: canonicalize inner payload: …` -/
  | canonicalize (e : Canonjson.Error)
  /-- `pair approval: parse inner payload: …` -/
  | parse
  /-- `pair approval: inner payload missing ownerIdentityPubkey` -/
  | missingOwner
  /-- `pair approval: decode ownerIdentityPubkey: …` -/
  | ownerEncoding
  /-- `pair approval: ownerIdentityPubkey wrong size: …` -/
  | ownerSize (size : Nat)
  /-- `pair approval: pairSessionId in inner payload doesn't match the pairing session` -/
  | sessionMismatch (inner expected : String)
  /-- `pair approval: ownerSelfSig invalid` -/
  | signature
  /-- `pair approval: this NAS has no identity key to anchor the approval against` -/
  | nasKeyUnknown
  /-- `… approval carries no nasPubkey` -/
  | missingNAS
  /-- `pair approval: nasPubkey in approval is not this NAS's key` -/
  | nasMismatch (inner expected : String)
  /-- `… nasAttestationSig missing` -/
  | missingAttestation
  /-- `pair approval: canonicalize nas attestation: …` -/
  | attestationCanonicalize (e : Canonjson.Error)
  /-- `… decode: …` -/
  | attestationEncoding
  /-- `pair approval: nasAttestationSig missing or invalid` -/
  | attestation
  deriving DecidableEq, Repr

def pairInfoString : String := "atreos-pair-v1"

def approvalSchema : Schema :=
  [("pairSessionId", .leaf .text), ("ownerIdentityPubkey", .leaf .text),
    ("approvedAt", .leaf .text), ("nasPubkey", .leaf .text), ("nasAttestationSig", .leaf .text)]

def readApproval (es : List Json.Event) : ApprovalInner :=
  { pairSessionID := textAt es ["pairSessionId"]
    ownerIdentityPubkey := textAt es ["ownerIdentityPubkey"]
    approvedAt := textAt es ["approvedAt"]
    nasPubkey := textAt es ["nasPubkey"]
    nasAttestationSig := textAt es ["nasAttestationSig"] }

def ApprovalInner.unmarshal (bs : Bytes) : Option ApprovalInner :=
  (Json.unmarshal approvalSchema bs).map readApproval

/-- What the attestation signs. -/
def nasAttestationBody (nasPubkey : String) : Doc := .obj [("nasPubkey", .str nasPubkey)]

/-- The plaintext of a blob. Deriving a key of 32 bytes and setting up the cipher with it do
not fail. -/
def decryptBlob (crypto : PairCrypto) (blob : PairApprovalBlob) (pairToken : Bytes) :
    Except PairApprovalError Bytes := do
  ensure .emptyToken (pairToken ≠ [])
  let nonce ← require .nonceEncoding (decode64 blob.nonce)
  let ct ← require .ciphertextEncoding (decode64 blob.ciphertext)
  ensure (.nonceSize nonce.length) (nonce.length = 12)
  require .decrypt (crypto.gcmOpen (crypto.hkdf pairToken (utf8 pairInfoString)) nonce ct)

def ownerKey (raw : Bytes) : Except PairApprovalError PublicKey :=
  if h : raw.length = 32 then .ok ⟨raw, h⟩ else .error (.ownerSize raw.length)

/-- The owner key, the canonical document and the time of the approval. -/
def decodePairApprovalBlob (crypto : PairCrypto) (blob : PairApprovalBlob) (pairToken : Bytes)
    (expectedSessionID expectedNASPubkey : String) :
    Except PairApprovalError (PublicKey × Bytes × String) := do
  let plain ← decryptBlob crypto blob pairToken
  ensure (.tooShort plain.length) (64 < plain.length)
  let innerJSON := plain.take (plain.length - 64)
  let ownerSelfSig := plain.drop (plain.length - 64)
  let canon ← (Canonjson.marshalRaw innerJSON).mapError .canonicalize
  let inner ← require .parse (ApprovalInner.unmarshal innerJSON)
  ensure .missingOwner (inner.ownerIdentityPubkey ≠ "")
  let raw ← require .ownerEncoding (decode64 inner.ownerIdentityPubkey)
  let pub ← ownerKey raw
  -- An empty session on either side skips the check.
  ensure (.sessionMismatch inner.pairSessionID expectedSessionID)
    (expectedSessionID = "" ∨ inner.pairSessionID = "" ∨ inner.pairSessionID = expectedSessionID)
  ensure .signature (crypto.verify pub canon ownerSelfSig)
  ensure .nasKeyUnknown (expectedNASPubkey ≠ "")
  ensure .missingNAS (inner.nasPubkey ≠ "")
  ensure (.nasMismatch inner.nasPubkey expectedNASPubkey) (inner.nasPubkey = expectedNASPubkey)
  ensure .missingAttestation (inner.nasAttestationSig ≠ "")
  let attCanon ← (Canonjson.marshal (nasAttestationBody inner.nasPubkey)).mapError
    .attestationCanonicalize
  let attSig ← require .attestationEncoding (decode64 inner.nasAttestationSig)
  ensure .attestation (crypto.verify pub attCanon attSig)
  .ok (pub, canon, inner.approvedAt)

section Binding

variable (crypto : PairCrypto) (blob : PairApprovalBlob) (pairToken : Bytes)

/-- The blob holds the document and the signature, the owner has signed the canonical form of
the document, the document names the server, and the owner attests the key of that server. -/
structure ApprovalBound (nasPubkey : String) (pub : PublicKey) (canon : Bytes)
    (innerJSON ownerSelfSig : Bytes) (inner : ApprovalInner) : Prop where
  decrypts : decryptBlob crypto blob pairToken = .ok (innerJSON ++ ownerSelfSig)
  size : ownerSelfSig.length = 64
  reads : ApprovalInner.unmarshal innerJSON = some inner
  canonical : Canonjson.marshalRaw innerJSON = .ok canon
  owner : decodeEd25519 inner.ownerIdentityPubkey = some pub
  signed : crypto.verify pub canon ownerSelfSig = true
  server : inner.nasPubkey = nasPubkey
  attested : ∃ attCanon attSig, Canonjson.marshal (nasAttestationBody nasPubkey) = .ok attCanon ∧
    decode64 inner.nasAttestationSig = some attSig ∧ crypto.verify pub attCanon attSig = true

variable {crypto blob pairToken} {expectedSessionID expectedNASPubkey : String}

theorem ownerKey_eq_ok {raw : Bytes} {pub : PublicKey} {b64 : String}
    (hRaw : decode64 b64 = some raw) (h : ownerKey raw = .ok pub) : decodeEd25519 b64 = some pub := by
  unfold ownerKey at h
  split at h
  next hSize =>
    cases h
    rw [decodeEd25519, hRaw, Option.bind_some, dif_pos hSize]
  · cases h

/-- Everything a decoded approval has gone through. -/
theorem decodePairApprovalBlob_eq_ok {pub : PublicKey} {canon : Bytes} {approvedAt : String}
    (h : decodePairApprovalBlob crypto blob pairToken expectedSessionID expectedNASPubkey =
      .ok (pub, canon, approvedAt)) :
    ∃ innerJSON ownerSelfSig inner,
      ApprovalBound crypto blob pairToken expectedNASPubkey pub canon innerJSON ownerSelfSig inner ∧
      (expectedSessionID = "" ∨ inner.pairSessionID = "" ∨ inner.pairSessionID = expectedSessionID) := by
  obtain ⟨plain, hPlain, h⟩ := bind_eq_ok.mp h
  obtain ⟨_, hLong, h⟩ := bind_eq_ok.mp h
  obtain ⟨canon', hCanon, h⟩ := bind_eq_ok.mp h
  obtain ⟨inner, hInner, h⟩ := bind_eq_ok.mp h
  obtain ⟨_, _, h⟩ := bind_eq_ok.mp h
  obtain ⟨raw, hRaw, h⟩ := bind_eq_ok.mp h
  obtain ⟨pub', hPub, h⟩ := bind_eq_ok.mp h
  obtain ⟨_, hSession, h⟩ := bind_eq_ok.mp h
  obtain ⟨_, hSigned, h⟩ := bind_eq_ok.mp h
  obtain ⟨_, _, h⟩ := bind_eq_ok.mp h
  obtain ⟨_, _, h⟩ := bind_eq_ok.mp h
  obtain ⟨_, hServer, h⟩ := bind_eq_ok.mp h
  obtain ⟨_, _, h⟩ := bind_eq_ok.mp h
  obtain ⟨attCanon, hAttCanon, h⟩ := bind_eq_ok.mp h
  obtain ⟨attSig, hAttSig, h⟩ := bind_eq_ok.mp h
  obtain ⟨_, hAttested, h⟩ := bind_eq_ok.mp h
  cases h
  have hSize : 64 < plain.length := of_decide_eq_true (ensure_eq_ok.mp hLong)
  have hServer : inner.nasPubkey = expectedNASPubkey := of_decide_eq_true (ensure_eq_ok.mp hServer)
  refine ⟨plain.take (plain.length - 64), plain.drop (plain.length - 64), inner, ?_,
    of_decide_eq_true (ensure_eq_ok.mp hSession)⟩
  exact
    { decrypts := by rw [hPlain, List.take_append_drop]
      size := by
        rw [List.length_drop]
        omega
      reads := require_eq_ok.mp hInner
      canonical := mapError_eq_ok.mp hCanon
      owner := ownerKey_eq_ok (require_eq_ok.mp hRaw) hPub
      signed := ensure_eq_ok.mp hSigned
      server := hServer
      attested := ⟨attCanon, attSig, by rw [← hServer]; exact mapError_eq_ok.mp hAttCanon,
        require_eq_ok.mp hAttSig, ensure_eq_ok.mp hAttested⟩ }

/-- An approval that is bound to the server and passes the check of the session is
decoded. -/
theorem ApprovalBound.decodes {pub : PublicKey} {canon innerJSON ownerSelfSig : Bytes}
    {inner : ApprovalInner}
    (h : ApprovalBound crypto blob pairToken expectedNASPubkey pub canon innerJSON ownerSelfSig inner)
    (hInner : innerJSON ≠ []) (hServer : expectedNASPubkey ≠ "")
    (hAttestation : inner.nasAttestationSig ≠ "")
    (hSession : expectedSessionID = "" ∨ inner.pairSessionID = "" ∨
      inner.pairSessionID = expectedSessionID) :
    decodePairApprovalBlob crypto blob pairToken expectedSessionID expectedNASPubkey =
      .ok (pub, canon, inner.approvedAt) := by
  have hCut : (innerJSON ++ ownerSelfSig).length - 64 = innerJSON.length := by
    rw [List.length_append, h.size, Nat.add_sub_cancel]
  have hLong : 64 < (innerJSON ++ ownerSelfSig).length := by
    rw [List.length_append, h.size]
    have hPos := List.length_pos_iff.mpr hInner
    omega
  obtain ⟨raw, hRaw, hSize⟩ := Option.bind_eq_some_iff.mp h.owner
  have hOwner : inner.ownerIdentityPubkey ≠ "" := by
    intro hEmpty
    have hOwner := h.owner
    rw [hEmpty] at hOwner
    cases hOwner
  have hKey : ownerKey raw = .ok pub := by
    unfold ownerKey
    split at hSize
    next hLength =>
      rw [dif_pos hLength, Option.some.inj hSize]
    · cases hSize
  obtain ⟨attCanon, attSig, hAttCanon, hAttSig, hAttested⟩ := h.attested
  -- The checks in the order of the code.
  refine bind_eq_ok.mpr ⟨_, h.decrypts, ensure_then hLong ?_⟩
  dsimp only
  rw [hCut, List.take_left, List.drop_left]
  refine bind_eq_ok.mpr ⟨canon, mapError_eq_ok.mpr h.canonical, require_then h.reads ?_⟩
  refine ensure_then hOwner (require_then hRaw (bind_eq_ok.mpr ⟨pub, hKey, ?_⟩))
  refine ensure_then hSession (bind_eq_ok.mpr ⟨(), ensure_eq_ok.mpr h.signed, ?_⟩)
  refine ensure_then hServer ?_
  rw [h.server]
  refine ensure_then hServer (ensure_then rfl (ensure_then hAttestation ?_))
  refine bind_eq_ok.mpr ⟨attCanon, mapError_eq_ok.mpr hAttCanon, require_then hAttSig ?_⟩
  exact bind_eq_ok.mpr ⟨(), ensure_eq_ok.mpr hAttested, rfl⟩

theorem approvalSchema_distinct : approvalSchema.Distinct := by decide +kernel

/-- Documents are read alike when all their fields are. -/
theorem readApproval_eq {es es' : List Json.Event}
    (h : ∀ f ∈ leaves approvalSchema, f.2.final (storesAt f.1 es') = f.2.final (storesAt f.1 es)) :
    readApproval es' = readApproval es := by
  simpa [leaves, approvalSchema, Leaf.final, readApproval, textAt] using h

/-- An approval that is decoded is bound to the server, and to the session just if its
document names one. If the signed bytes pin the fields, every document with these bytes is
read alike. -/
theorem approval_bound_iff (crypto : PairCrypto) (blob : PairApprovalBlob) (pairToken : Bytes)
    (expectedSessionID expectedNASPubkey : String) (hSession : expectedSessionID ≠ "")
    (pub : PublicKey) (canon : Bytes) (approvedAt : String)
    (h : decodePairApprovalBlob crypto blob pairToken expectedSessionID expectedNASPubkey =
      .ok (pub, canon, approvedAt)) :
    ∃ innerJSON ownerSelfSig inner,
      ApprovalBound crypto blob pairToken expectedNASPubkey pub canon innerJSON ownerSelfSig inner ∧
      (inner.pairSessionID = expectedSessionID ↔ inner.pairSessionID ≠ "") ∧
      (Pinned approvalSchema (signedMembers innerJSON) → ∀ q inner',
        Canonjson.marshalRaw q = .ok canon → ApprovalInner.unmarshal q = some inner' →
          inner' = inner) := by
  obtain ⟨innerJSON, ownerSelfSig, inner, hBound, hCases⟩ := decodePairApprovalBlob_eq_ok h
  refine ⟨innerJSON, ownerSelfSig, inner, hBound, ⟨?_, ?_⟩, ?_⟩
  · rintro rfl
    exact hSession
  · intro hNamed
    rcases hCases with hSkipped | hNone | hSame
    · exact absurd hSkipped hSession
    · exact absurd hNone hNamed
    · exact hSame
  · intro hPinned q inner' hMarshal hRead
    obtain ⟨es, hEvents, rfl⟩ := Option.map_eq_some_iff.mp hBound.reads
    obtain ⟨es', hEvents', rfl⟩ := Option.map_eq_some_iff.mp hRead
    exact readApproval_eq (final_eq_of_pinned approvalSchema_distinct hPinned hBound.canonical
      hEvents hMarshal hEvents')

end Binding

section Sample

/-- A cipher that puts key and nonce in front of the text. -/
def sampleCrypto : PairCrypto where
  hkdf secret info := secret ++ info
  gcmOpen key nonce ct :=
    if ct.take (key ++ nonce).length = key ++ nonce then some (ct.drop (key ++ nonce).length) else none
  verify key body sig := sig = sampleSignature key body

def samplePairToken : Bytes := [1]

def sampleNonce : Bytes := List.replicate 12 0

/-- The approval of a document by the owner. -/
def sampleApproval (inner : Doc) : PairApprovalBlob :=
  { nonce := encode64 sampleNonce
    ciphertext := encode64 (samplePairToken ++ utf8 pairInfoString ++ sampleNonce ++
      (inner.print true ++ sampleSignature (sampleKey 1) (inner.tree.print false))) }

theorem decryptBlob_sample (inner : Doc) :
    decryptBlob sampleCrypto (sampleApproval inner) samplePairToken =
      .ok (inner.print true ++ sampleSignature (sampleKey 1) (inner.tree.print false)) := by
  refine bind_eq_ok.mpr ⟨(), rfl, bind_eq_ok.mpr ⟨sampleNonce,
    require_eq_ok.mpr (decode64_encode64 _), bind_eq_ok.mpr ⟨_,
    require_eq_ok.mpr (decode64_encode64 _), bind_eq_ok.mpr ⟨(), rfl, require_eq_ok.mpr ?_⟩⟩⟩⟩
  simp only [sampleCrypto, List.take_left, List.drop_left, if_true]

/-- The attestation of server `n` by the owner. -/
def sampleAttestation : String :=
  encode64 (sampleSignature (sampleKey 1) ((nasAttestationBody "n").tree.print false))

/-- A document of the owner that attests server `n` is bound to it. -/
theorem approvalBound_sample (d : Doc) (inner : ApprovalInner)
    (hHeight : d.height ≤ maxNestingDepth) (hNull : d.tree.nullFree = true)
    (hReads : (decodeStruct approvalSchema d).map readApproval = some inner)
    (hOwner : inner.ownerIdentityPubkey = (sampleKey 1).base64) (hServer : inner.nasPubkey = "n")
    (hAttestation : inner.nasAttestationSig = sampleAttestation) :
    ApprovalBound sampleCrypto (sampleApproval d) samplePairToken "n" (sampleKey 1)
      (d.tree.print false) (d.print true) (sampleSignature (sampleKey 1) (d.tree.print false))
      inner where
  decrypts := decryptBlob_sample d
  size := by simp [sampleSignature, sampleDigest, sampleKey]
  reads := by
    rw [ApprovalInner.unmarshal, Json.unmarshal, parseWhole_print true hHeight]
    exact hReads
  canonical := Canonjson.marshalRaw_print true hHeight hNull
  owner := by rw [hOwner, decodeEd25519_base64]
  signed := decide_eq_true rfl
  server := hServer
  attested := ⟨_, _, Canonjson.marshalRaw_print true (by decide) rfl,
    by rw [hAttestation, sampleAttestation, decode64_encode64], decide_eq_true rfl⟩

/-- The members that name the owner and the server. -/
def sampleApprovalMembers : Members :=
  [("approvedAt", .str "t"), ("nasAttestationSig", .str sampleAttestation), ("nasPubkey", .str "n"),
    ("ownerIdentityPubkey", .str (sampleKey 1).base64)]

/-- What is read from them, with the given session. -/
def sampleInner (session : String) : ApprovalInner :=
  { pairSessionID := session, ownerIdentityPubkey := (sampleKey 1).base64, approvedAt := "t",
    nasPubkey := "n", nasAttestationSig := sampleAttestation }

def sessionDoc : Doc := .obj (sampleApprovalMembers ++ [("pairSessionId", .str "s")])

/-- A document that names no session. -/
def openDoc : Doc := .obj sampleApprovalMembers

theorem sampleAttestation_ne_empty : sampleAttestation ≠ "" :=
  sampleSignature_ne_empty _ _

/-- The approval for session `s` names it. -/
theorem session_approval_bound :
    ∃ innerJSON ownerSelfSig inner,
      ApprovalBound sampleCrypto (sampleApproval sessionDoc) samplePairToken "n" (sampleKey 1)
        (sessionDoc.tree.print false) innerJSON ownerSelfSig inner ∧
      (inner.pairSessionID = "s" ↔ inner.pairSessionID ≠ "") := by
  have hBound := approvalBound_sample sessionDoc (sampleInner "s") (by decide) rfl rfl rfl rfl rfl
  have hDecodes : decodePairApprovalBlob sampleCrypto (sampleApproval sessionDoc) samplePairToken "s"
      "n" = .ok (sampleKey 1, sessionDoc.tree.print false, "t") :=
    hBound.decodes (by simp [sessionDoc, Doc.print]) (by decide) sampleAttestation_ne_empty
      (Or.inr (Or.inr rfl))
  obtain ⟨innerJSON, ownerSelfSig, inner, hAgain, hNames, _⟩ := approval_bound_iff sampleCrypto
    (sampleApproval sessionDoc) samplePairToken "s" "n" (by decide) _ _ _ hDecodes
  exact ⟨innerJSON, ownerSelfSig, inner, hAgain, hNames⟩

/-- An approval that names no session is decoded for session `s`. -/
theorem open_approval_decoded :
    decodePairApprovalBlob sampleCrypto (sampleApproval openDoc) samplePairToken "s" "n" =
        .ok (sampleKey 1, openDoc.tree.print false, "t") ∧
      ∀ inner, ApprovalInner.unmarshal (openDoc.print true) = some inner →
        inner.pairSessionID ≠ "s" := by
  have hBound := approvalBound_sample openDoc (sampleInner "") (by decide) rfl rfl rfl rfl rfl
  constructor
  · exact hBound.decodes (by simp [openDoc, Doc.print]) (by decide) sampleAttestation_ne_empty
      (Or.inr (Or.inl rfl))
  · intro inner hReads
    cases hReads.symm.trans hBound.reads
    decide

end Sample

end Tunnel
