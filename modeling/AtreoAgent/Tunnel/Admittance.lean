import AtreoAgent.Tunnel.Verify

/-! Documents the agent signs for itself: the admittance certificate of a member
(`admittance.go`) and the lease of a tunnel address (`iplease.go`). Both come back
through the coordination service and count only with the agent's own signature. -/
namespace Tunnel

open Codec Json Atreolink

/-- Why a certificate is not minted or does not count. -/
inductive AdmittanceError where
  /-- `admittance: certificate malformed` -/
  | malformed
  /-- `admittance: certificate binding mismatch` -/
  | binding
  /-- `admittance: signature invalid` -/
  | signature
  deriving DecidableEq, Repr

/-- The document that is signed, with its names in order. -/
def certBody (cert : AdmittanceCertificate) : Doc :=
  .obj [("admittedAt", .num (Number.ofInt cert.admittedAt)),
    ("attestationHash", .str cert.attestationHash),
    ("identityKey", .str cert.identityKey),
    ("initialAllowedAppIds", .arr ((cert.initialAllowedAppIDs.getD []).map .str)),
    ("memberId", .str cert.memberID),
    ("nasPubkey", .str cert.nasPubkey)]

/-- The canonical body that both minting and checking are about. -/
def certSignedBytes (cert : AdmittanceCertificate) : Except Canonjson.Error Bytes :=
  Canonjson.marshal (certBody cert)

/-- A certificate that binds the member to this agent. The hash commits to the raw bytes of the
invite, and a nil list of apps is signed as an empty one. -/
def mintAdmittanceCertificate (env : Env) (memberID identityKey nasPubkey : String)
    (attestationBytes : Bytes) (initialAllowedAppIDs : Option (List String)) (now : Time) :
    Except AdmittanceError AdmittanceCertificate :=
  if memberID = "" ∨ identityKey = "" ∨ nasPubkey = "" then .error .malformed
  else if attestationBytes = [] then .error .malformed
  else
    let cert : AdmittanceCertificate :=
      { memberID := memberID
        identityKey := identityKey
        nasPubkey := nasPubkey
        admittedAt := unix now
        attestationHash := encode64 (env.sha256 attestationBytes)
        initialAllowedAppIDs := some (initialAllowedAppIDs.getD [])
        signature := "" }
    match certSignedBytes cert with
    | .error _ => .error .malformed
    | .ok body => .ok { cert with signature := encode64 (env.sign body) }

/-- The three bindings are compared first, and then the signature, which has to be under the key
of the agent itself. -/
def verifyAdmittanceCertificate (env : Env) (cert : AdmittanceCertificate)
    (expectedMemberID expectedIdentityKey expectedNASPubkey : String) :
    Except AdmittanceError Unit :=
  if cert.memberID ≠ expectedMemberID then .error .binding
  else if cert.identityKey ≠ expectedIdentityKey then .error .binding
  else if cert.nasPubkey ≠ expectedNASPubkey then .error .binding
  else if cert.signature = "" then .error .signature
  else
    match decode64 cert.signature with
    | none => .error .signature
    | some sig =>
        match certSignedBytes cert with
        | .error _ => .error .malformed
        | .ok body => if env.verify env.agentKey body sig then .ok () else .error .signature

/-- Why a lease is not minted or does not count. -/
inductive LeaseError where
  /-- `ip-lease: malformed` -/
  | malformed
  /-- `ip-lease: binding mismatch` -/
  | binding
  /-- `ip-lease: signature invalid` -/
  | signature
  deriving DecidableEq, Repr

/-- The canonical body of a lease. -/
def leaseSignedBytes (deviceID wgPublicKey tunnelIP : String) : Except Canonjson.Error Bytes :=
  Canonjson.marshal (.obj [("deviceId", .str deviceID), ("tunnelIp", .str tunnelIP),
    ("wgPublicKey", .str wgPublicKey)])

/-- The agent signs which address it has given to a WireGuard key. -/
def mintTunnelIPLease (env : Env) (deviceID wgPublicKey tunnelIP : String) :
    Except LeaseError TunnelIPLease :=
  if deviceID = "" ∨ wgPublicKey = "" ∨ tunnelIP = "" then .error .malformed
  else
    match leaseSignedBytes deviceID wgPublicKey tunnelIP with
    | .error _ => .error .malformed
    | .ok body =>
        .ok { deviceID := deviceID, wgPublicKey := wgPublicKey, tunnelIP := tunnelIP,
              nasSignature := encode64 (env.sign body) }

/-- A lease counts for one device and one key. It is no reservation: whether its address is free is
the question of the allocator. -/
def verifyTunnelIPLease (env : Env) (lease : TunnelIPLease)
    (expectedDeviceID expectedWGPublicKey : String) : Except LeaseError Unit :=
  if lease.deviceID ≠ expectedDeviceID then .error .binding
  else if lease.wgPublicKey ≠ expectedWGPublicKey then .error .binding
  else if lease.tunnelIP = "" then .error .malformed
  else if lease.nasSignature = "" then .error .signature
  else
    match decode64 lease.nasSignature with
    | none => .error .signature
    | some sig =>
        match leaseSignedBytes lease.deviceID lease.wgPublicKey lease.tunnelIP with
        | .error _ => .error .malformed
        | .ok body => if env.verify env.agentKey body sig then .ok () else .error .signature

theorem encode64_ne_empty {bs : Bytes} (h : bs ≠ []) : encode64 bs ≠ "" := by
  intro hEmpty
  have hDecoded := decode64_encode64 bs
  rw [hEmpty] at hDecoded
  exact h (Option.some.inj hDecoded).symm

theorem base64_ne_empty (key : PublicKey) : key.base64 ≠ "" := by
  refine encode64_ne_empty fun hNil => ?_
  have hSize := key.size
  rw [hNil] at hSize
  cases hSize

/-- The signature is not part of what is signed. -/
theorem certSignedBytes_signature (cert : AdmittanceCertificate) (signature : String) :
    certSignedBytes { cert with signature := signature } = certSignedBytes cert := rfl

/-- The agent accepts its own certificate for the same member. -/
theorem verifyAdmittanceCertificate_mint {env : Env} {memberID identityKey nasPubkey : String}
    {attestation : Bytes} {apps : Option (List String)} {now : Time} {cert : AdmittanceCertificate}
    (hMint : mintAdmittanceCertificate env memberID identityKey nasPubkey attestation apps now =
      .ok cert) :
    verifyAdmittanceCertificate env cert memberID identityKey nasPubkey = .ok () ∧
      cert.initialAllowedAppIDs = some (apps.getD []) := by
  unfold mintAdmittanceCertificate at hMint
  split at hMint
  · cases hMint
  split at hMint
  · cases hMint
  extract_lets unsigned at hMint
  split at hMint
  · cases hMint
  next body hBody =>
    cases hMint
    refine ⟨?_, rfl⟩
    have hSigned : env.sign body ≠ [] := by
      intro hNil
      have hSize := env.sign_size body
      rw [hNil] at hSize
      cases hSize
    unfold verifyAdmittanceCertificate
    rw [if_neg (not_not_intro rfl), if_neg (not_not_intro rfl), if_neg (not_not_intro rfl),
      if_neg (encode64_ne_empty hSigned)]
    simp only [decode64_encode64]
    rw [certSignedBytes_signature unsigned, hBody]
    simp [env.verify_sign]

theorem verifyAdmittanceCertificate_congr (env other : Env) (hVerify : env.verify = other.verify)
    (hKey : env.agentKey = other.agentKey) (cert : AdmittanceCertificate)
    (memberID identityKey nasPubkey : String) :
    verifyAdmittanceCertificate env cert memberID identityKey nasPubkey =
      verifyAdmittanceCertificate other cert memberID identityKey nasPubkey := by
  unfold verifyAdmittanceCertificate
  rw [hVerify, hKey]

/-- A certificate that is accepted is for the member and signed by the agent. -/
theorem verifyAdmittanceCertificate_eq_ok {env : Env} {cert : AdmittanceCertificate}
    {memberID identityKey nasPubkey : String}
    (h : verifyAdmittanceCertificate env cert memberID identityKey nasPubkey = .ok ()) :
    cert.memberID = memberID ∧ cert.identityKey = identityKey ∧
      ∃ body sig, certSignedBytes cert = .ok body ∧ decode64 cert.signature = some sig ∧
        env.verify env.agentKey body sig = true := by
  unfold verifyAdmittanceCertificate at h
  split at h
  · cases h
  next hMember =>
    split at h
    · cases h
    next hKey =>
      split at h
      · cases h
      · split at h
        · cases h
        · split at h
          · cases h
          next sig hSig =>
            split at h
            · cases h
            next body hBody =>
              split at h
              next hVerify =>
                exact ⟨not_not.mp hMember, not_not.mp hKey, body, sig, hBody, hSig, hVerify⟩
              · cases h

theorem height_certBody (cert : AdmittanceCertificate) :
    (certBody cert).height ≤ maxNestingDepth := by
  simp [certBody, Doc.height, Doc.heightMembers, maxNestingDepth]

theorem nullFree_certBody (cert : AdmittanceCertificate) :
    (certBody cert).tree.nullFree = true :=
  nullFree_tree (by simp [certBody, Doc.nullFree, nullFreeMembers, nullFreeItems_iff])

/-- The signed bytes of a certificate determine whose it is. -/
theorem identityKey_eq_of_signedBytes {c d : AdmittanceCertificate} {body : Bytes}
    (hc : certSignedBytes c = .ok body) (hd : certSignedBytes d = .ok body) :
    c.identityKey = d.identityKey := by
  have hFind := Canonjson.lookup_eq_of_marshal_eq (height_certBody c) (height_certBody d) hc hd
    "identityKey"
  simpa [findLast, Doc.tree] using hFind

end Tunnel
