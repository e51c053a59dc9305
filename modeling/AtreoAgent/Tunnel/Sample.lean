import AtreoAgent.Atreolink.Wire
import AtreoAgent.Machine.Run
import AtreoAgent.Tunnel.Cases

/-! Keys, signatures and signed documents for evaluating the model. What stands for a
signature is the key followed by a checksum of the body. -/
namespace Tunnel

open Codec Json Atreolink Fallible

def sampleKey (b : UInt8) : PublicKey := ⟨List.replicate 32 b, List.length_replicate⟩

/-- A checksum, padded to 32 bytes. -/
def sampleDigest (body : Bytes) : Bytes :=
  let sum := body.foldl (fun n b => n + b.toNat) 0
  UInt8.ofNat (sum / 256) :: UInt8.ofNat (sum % 256) :: List.replicate 30 0

def sampleSignature (key : PublicKey) (body : Bytes) : Bytes := key.bytes ++ sampleDigest body

theorem sampleSignature_ne_empty (key : PublicKey) (body : Bytes) :
    encode64 (sampleSignature key body) ≠ "" :=
  encode64_ne_empty (by simp [sampleSignature, sampleDigest])

theorem sampleSubnet_octets : "100.64.0".toList = Net.formatIPv4 [100, 64, 0] := by decide +kernel

theorem sampleSubnet_gateway : "100.64.0.1" = "100.64.0" ++ "." ++ toString 1 := by decide +kernel

/-- An agent with device id `d` that can read the given device states. -/
def sampleEnv (states : List DeviceState) : Env where
  verify key body sig := sig = sampleSignature key body
  agentKey := sampleKey 7
  sign := sampleSignature (sampleKey 7)
  verify_sign body := by simp
  sign_size body := by simp [sampleSignature, sampleDigest, sampleKey]
  sha256 := sampleDigest
  parseRFC3339 _ := none
  parseURL _ := none
  unmarshalBytes _ := none
  unmarshalDeviceState bs := states.find? (·.json.print true = bs)
  gunzip _ := none
  deviceID := "d"
  tunnelHost := "nas.local"
  relayEndpoint := none
  subnet := ⟨⟨"100.64.0", "100.64.0.1"⟩, ⟨100, 64, 0, sampleSubnet_octets⟩, sampleSubnet_gateway⟩
  server :=
    { subnet := "100.64.0.0/24", serverIPv6 := "fd00::1", subnetV6 := "fd00::/64",
      iface := "wg-atreo", publicKey := (sampleKey 9).base64, listenPort := 51820 }

/-- An agent that has just been paired with the owner of the samples. -/
abbrev sampleAgent (env : Env) : Agent := .fresh env (some (sampleKey 1))

/-- That agent after some inputs. -/
abbrev sampleRun (states : List DeviceState) (inputs : List Input) : Agent :=
  Machine.run (Agent.step (sampleEnv states)) (sampleAgent (sampleEnv states)) inputs

/-- An envelope over a document, signed with the given key. -/
def sampleEnvelope (key : PublicKey) (signerID : String) (body : Doc) : DSEnvelope :=
  let payload := body.print true
  let canon := (Canonjson.marshalRaw payload).toOption.getD []
  { payload := payload, signerID := signerID, signature := encode64 (sampleSignature key canon) }

/-- A command with the given correlation id. -/
def sampleCommand (key : PublicKey) (signerID correlationID : String) (body : Doc) :
    TunnelMessage :=
  { (sampleEnvelope key signerID body).asMessage "" with correlationID := correlationID }

/-- A device state as a message. -/
def sampleState (st : DeviceState) : TunnelMessage :=
  { type := "device:state", correlationID := "", payload := st.json.print true, signerID := "",
    signature := "" }

/-- The state is the first of the list with its text. -/
def Reads (states : List DeviceState) (st : DeviceState) : Prop :=
  states.find? (·.json.print true = st.json.print true) = some st

theorem reads_head (st : DeviceState) (rest : List DeviceState) : Reads (st :: rest) st := by
  simp [Reads]

variable {st : DeviceState} {states : List DeviceState} {dm : DSMember} {key owner : PublicKey}
  {wgPublicKeys : List String} {now : Time} {apps : List App} {store : Acl.Store} {status : String}

theorem reads_cons {other : DeviceState} {rest : List DeviceState}
    (hNe : other.json.print true ≠ st.json.print true) (h : Reads rest st) :
    Reads (other :: rest) st := by
  rw [Reads, List.find?_cons_of_neg (by simpa using hNe)]
  exact h

theorem decodeDeviceState_sample (h : Reads states st) :
    decodeDeviceState (sampleEnv states) (sampleState st) = some st := by
  rw [decodeDeviceState, if_neg (by simp [sampleState])]
  exact h

/-- The document a client is registered with. -/
def sampleRegistration (memberID wgPublicKey : String) : Doc :=
  .obj [
    ("intent", .str ("wg:client-register-d-" ++ memberID ++ "-" ++ wgPublicKey ++ "-0")),
    ("memberId", .str memberID), ("publicKey", .str wgPublicKey), ("ts", .num (Number.ofInt 0))]

/-- A client with the registration of its member. -/
def sampleClient (key : PublicKey) (memberID wgPublicKey : String) : DSClient :=
  { wgPublicKey := wgPublicKey, label := "", platform := ""
    registrationEnvelope :=
      some (sampleEnvelope key memberID (sampleRegistration memberID wgPublicKey))
    ipLease := none
    endpointType := "" }

/-- The document a status is set with. -/
def sampleStatusDoc (memberID status : String) : Doc :=
  .obj [
    ("intent", .str ("member:status-d-" ++ memberID ++ "-" ++ status ++ "-0")),
    ("memberId", .str memberID), ("status", .str status), ("ts", .num (Number.ofInt 0))]

/-- A status envelope of the owner. -/
def sampleStatus (owner : PublicKey) (memberID status : String) : DSEnvelope :=
  sampleEnvelope owner "a" (sampleStatusDoc memberID status)

/-- The owner, whose key is the pinned one. -/
def sampleOwner (key : PublicKey) (wgPublicKeys : List String) : DSMember :=
  { memberID := "a", userID := "", memberName := "", email := "", role := "owner"
    identityKey := key.base64, joinAttestation := none, admittance := none
    statusEnvelope := none, permissionsEnvelope := none
    clients := wgPublicKeys.map (sampleClient key "a") }

/-- A sample envelope verifies with the key it is signed with. -/
theorem verifySignature_sample (states : List DeviceState) (key : PublicKey) {signerID : String}
    (hSigner : signerID ≠ "") {body : Doc} (hHeight : body.height ≤ maxNestingDepth)
    (hNull : body.tree.nullFree = true) (type : String) :
    verifySignatureAgainst (sampleEnv states) ((sampleEnvelope key signerID body).asMessage type) key =
      .ok () := by
  have hCanon := Canonjson.marshalRaw_print true hHeight hNull
  have hSignature : (sampleEnvelope key signerID body).signature =
      encode64 (sampleSignature key (body.tree.print false)) := by
    simp only [sampleEnvelope, hCanon, Except.toOption, Option.getD_some]
  rw [verifySignatureAgainst, if_neg, checkSignature]
  · simp only [DSEnvelope.asMessage, hSignature, decode64_encode64]
    simp only [sampleEnvelope, hCanon]
    exact if_pos (decide_eq_true rfl)
  · rintro (hEmpty | hEmpty)
    · exact hSigner hEmpty
    · exact sampleSignature_ne_empty _ _ (hSignature.symm.trans hEmpty)

theorem height_sampleRegistration (memberID wgPublicKey : String) :
    (sampleRegistration memberID wgPublicKey).height ≤ maxNestingDepth := by
  simp [sampleRegistration, Doc.height, Doc.heightMembers, maxNestingDepth]

theorem unmarshal_sampleRegistration (memberID wgPublicKey : String) :
    PayloadType.clientRegister.unmarshal ((sampleRegistration memberID wgPublicKey).print true) =
      some {
        intent := "wg:client-register-d-" ++ memberID ++ "-" ++ wgPublicKey ++ "-0"
        timestamp := 0
        deviceID := ""
        memberID := memberID
        publicKey := wgPublicKey
        clientName := ""
        platform := "" } := by
  rw [PayloadType.unmarshal, unmarshal, parseWhole_print true (height_sampleRegistration _ _)]
  rfl

theorem registerIntent_sample (states : List DeviceState) (p : ClientRegisterPayload)
    (wgPublicKey : String) (h : p.timestamp = 0) :
    registerIntent (sampleEnv states) p wgPublicKey =
      "wg:client-register-d-" ++ p.memberID ++ "-" ++ wgPublicKey ++ "-0" := by
  have hID : (sampleEnv states).deviceID = "d" := rfl
  have hDevice : "wg:client-register-" ++ "d" ++ "-" = "wg:client-register-d-" := by
    decide +kernel
  have hTime : "-" ++ toString (0 : Int) = "-0" := by decide +kernel
  unfold registerIntent
  rw [hID, hDevice, h, String.append_assoc, hTime]

/-- The record of a sample client, before it has an address. -/
def sampleRecord (wgPublicKey : String) : ClientRecord :=
  { wgPublicKey := wgPublicKey, label := "", platform := "", endpointType := "" }

theorem verifyClient_sample (states : List DeviceState) (store : Acl.Store) (key : PublicKey)
    {memberID : String} (hMember : memberID ≠ "") (wgPublicKey : String) :
    verifyClient (sampleEnv states) store key memberID (sampleClient key memberID wgPublicKey)
      (sampleEnvelope key memberID (sampleRegistration memberID wgPublicKey)) =
        .ok ⟨sampleRecord wgPublicKey, none⟩ := by
  have hPayload : (sampleEnvelope key memberID (sampleRegistration memberID wgPublicKey)).payload =
      (sampleRegistration memberID wgPublicKey).print true := rfl
  have hKey : (sampleClient key memberID wgPublicKey).wgPublicKey = wgPublicKey := rfl
  unfold verifyClient
  rw [hPayload, unmarshal_sampleRegistration, hKey]
  refine bind_eq_ok.mpr ⟨_, rfl, bind_eq_ok.mpr ⟨(), mapError_eq_ok.mpr ?_,
    bind_eq_ok.mpr ⟨(), ensure_eq_ok.mpr ?_, rfl⟩⟩⟩
  · rw [verifyAuthorization, registerIntent_sample _ _ _ rfl, if_neg (not_not.mpr rfl)]
    exact verifySignature_sample states key hMember (height_sampleRegistration _ _) rfl _
  · exact decide_eq_true ⟨rfl, rfl⟩

theorem registeredClients_sample
    (h : dm.clients = wgPublicKeys.map (sampleClient key dm.memberID)) :
    registeredClients dm = wgPublicKeys.map fun k => (sampleClient key dm.memberID k,
      sampleEnvelope key dm.memberID (sampleRegistration dm.memberID k)) := by
  rw [registeredClients, h, List.filterMap_map]
  exact congrFun List.filterMap_eq_map' _

/-- What the verification makes of a sample member. -/
def sampleRow (dm : DSMember) (apps : List App) (status : String) (wgPublicKeys : List String) :
    VerifiedMember :=
  { entry := { initialEntry dm with
      admittance := dm.admittance
      status := status
      allowedApps := apps
      clients := wgPublicKeys.map sampleRecord }
    leases := []
    pending := none }

/-- A member is verified as it is admitted, whatever it was admitted by. -/
theorem verifyMember_admitted {admission : Admission} (hID : dm.memberID ≠ "")
    (hKey : dm.identityKey = key.base64)
    (hAdmission : verifyAdmission (sampleEnv states) store owner now dm = .ok admission)
    (hStatus : verifyStatus (sampleEnv states) store owner dm = .ok status)
    (hPermissions : dm.permissionsEnvelope = none)
    (hClients : dm.clients = wgPublicKeys.map (sampleClient key dm.memberID)) :
    verifyMember (sampleEnv states) store owner now apps dm =
      .ok { sampleRow dm (allowedApps apps dm admission.initialAppIDs none) status wgPublicKeys with
        entry.admittance := admission.admittance
        pending := admission.pending } := by
  have hEach : each (fun c => verifyClient (sampleEnv states) store key dm.memberID c.1 c.2)
      (registeredClients dm) = .ok (wgPublicKeys.map fun k => ⟨sampleRecord k, none⟩) := by
    rw [registeredClients_sample hClients, each_eq_ok, List.forall₂_map_left_iff,
      List.forall₂_map_right_iff, List.forall₂_same]
    exact fun k _ => verifyClient_sample states store key hID k
  have hPermitted : verifyPermissions (sampleEnv states) store owner dm = .ok none := by
    rw [verifyPermissions, hPermissions]
  refine bind_eq_ok.mpr ⟨_, hAdmission, bind_eq_ok.mpr ⟨key, ?_, bind_eq_ok.mpr ⟨status, hStatus,
    bind_eq_ok.mpr ⟨none, hPermitted, bind_eq_ok.mpr ⟨_, hEach, ?_⟩⟩⟩⟩⟩
  · rw [hKey, decodeEd25519_base64]
    rfl
  · simp [sampleRow, Function.comp_def, List.filterMap_map]

theorem verifyMember_sampleOwner (states : List DeviceState) (store : Acl.Store)
    (owner key : PublicKey) (now : Time) (apps : List App) (wgPublicKeys : List String) :
    verifyMember (sampleEnv states) store owner now apps (sampleOwner key wgPublicKeys) =
      .ok (sampleRow (sampleOwner key wgPublicKeys) apps "active" wgPublicKeys) :=
  verifyMember_admitted (show "a" ≠ "" by decide) rfl
    (show verifyAdmission _ _ _ _ _ = .ok ⟨none, [], none⟩ from rfl) rfl rfl rfl

/-- A member with a certificate of the agent, which admits it to the app `s`. -/
def sampleMember (key : PublicKey) (wgPublicKeys : List String) (status : Option DSEnvelope) :
    DSMember :=
  { memberID := "b", userID := "", memberName := "", email := "", role := "member"
    identityKey := key.base64, joinAttestation := none
    admittance := (mintAdmittanceCertificate (sampleEnv []) "b" key.base64 (sampleKey 7).base64 [1]
      (some ["s"]) 0).toOption
    statusEnvelope := status, permissionsEnvelope := none
    clients := wgPublicKeys.map (sampleClient key "b") }

theorem mint_sample (states : List DeviceState) {memberID : String} (hID : memberID ≠ "")
    (key : PublicKey) {attestation : Bytes} (hAttestation : attestation ≠ [])
    (apps : Option (List String)) (now : Time) :
    ∃ cert, mintAdmittanceCertificate (sampleEnv states) memberID key.base64 (sampleKey 7).base64
      attestation apps now = .ok cert := by
  unfold mintAdmittanceCertificate
  rw [if_neg (by simp [hID, base64_ne_empty]), if_neg hAttestation]
  dsimp only
  rw [certSignedBytes, Canonjson.marshal,
    Canonjson.marshalRaw_print true (height_certBody _) (nullFree_certBody _)]
  exact ⟨_, rfl⟩

theorem verifyAdmission_sampleMember (states : List DeviceState) (store : Acl.Store)
    (owner key : PublicKey) (now : Time) (wgPublicKeys : List String) (status : Option DSEnvelope) :
    verifyAdmission (sampleEnv states) store owner now (sampleMember key wgPublicKeys status) =
      .ok ⟨(sampleMember key wgPublicKeys status).admittance, ["s"], none⟩ := by
  obtain ⟨cert, hMint⟩ := mint_sample [] (show "b" ≠ "" by decide) key (List.cons_ne_nil 1 [])
    (some ["s"]) 0
  obtain ⟨hVerify, hApps⟩ := verifyAdmittanceCertificate_mint hMint
  have hAdmittance : (sampleMember key wgPublicKeys status).admittance = some cert := by
    rw [sampleMember, hMint]
    rfl
  -- What the agent can read plays no part in the check of a certificate.
  have hCheck := verifyAdmittanceCertificate_congr (sampleEnv states) (sampleEnv []) rfl rfl
  have hID : (sampleMember key wgPublicKeys status).memberID = "b" := rfl
  have hIdentity : (sampleMember key wgPublicKeys status).identityKey = key.base64 := rfl
  have hAgent : (sampleEnv states).agentKey = sampleKey 7 := rfl
  rw [verifyAdmission, if_neg (by simp [sampleMember, DSMember.isAdmin]), hAdmittance]
  dsimp only
  rw [hID, hIdentity, hAgent, hCheck, hVerify]
  simp only [Admission.ofCertificate, hApps]
  rfl

theorem statusIntent_sample (states : List DeviceState) (p : MemberStatusPayload)
    (h : p.timestamp = 0) : statusIntent (sampleEnv states) p =
      "member:status-d-" ++ p.memberID ++ "-" ++ p.status ++ "-0" := by
  have hID : (sampleEnv states).deviceID = "d" := rfl
  have hDevice : "member:status-" ++ "d" ++ "-" = "member:status-d-" := by decide +kernel
  have hTime : "-" ++ toString (0 : Int) = "-0" := by decide +kernel
  unfold statusIntent
  rw [hID, hDevice, h, String.append_assoc, hTime]

theorem height_sampleStatusDoc (memberID status : String) :
    (sampleStatusDoc memberID status).height ≤ maxNestingDepth := by
  simp [sampleStatusDoc, Doc.height, Doc.heightMembers, maxNestingDepth]

theorem unmarshal_sampleStatusDoc (memberID status : String) :
    PayloadType.memberStatus.unmarshal ((sampleStatusDoc memberID status).print true) =
      some {
        intent := "member:status-d-" ++ memberID ++ "-" ++ status ++ "-0"
        timestamp := 0
        deviceID := ""
        memberID := memberID
        status := status
        changedAt := "" } := by
  rw [PayloadType.unmarshal, unmarshal, parseWhole_print true (height_sampleStatusDoc _ _)]
  rfl

theorem verifyStatus_sample (states : List DeviceState) (store : Acl.Store)
    (h : dm.statusEnvelope = some (sampleStatus owner dm.memberID status))
    (hStatus : status = "active" ∨ status = "suspended") :
    verifyStatus (sampleEnv states) store owner dm = .ok status := by
  have hPayload : (sampleStatus owner dm.memberID status).payload =
      (sampleStatusDoc dm.memberID status).print true := rfl
  rw [verifyStatus, h]
  dsimp only
  rw [hPayload, unmarshal_sampleStatusDoc]
  refine bind_eq_ok.mpr ⟨_, rfl, ensure_then rfl (ensure_then hStatus
    (bind_eq_ok.mpr ⟨(), mapError_eq_ok.mpr ?_, rfl⟩))⟩
  rw [verifyAuthorization, statusIntent_sample _ _ rfl, if_neg (not_not.mpr rfl)]
  exact verifySignature_sample states owner (by decide) (height_sampleStatusDoc _ _) rfl _

theorem verifyMember_sampleMember (states : List DeviceState) (store : Acl.Store)
    (owner key : PublicKey) (now : Time) (apps : List App) (wgPublicKeys : List String) :
    verifyMember (sampleEnv states) store owner now apps (sampleMember key wgPublicKeys none) =
      .ok (sampleRow (sampleMember key wgPublicKeys none) (["s"].filterMap (appByID apps)) "active"
        wgPublicKeys) :=
  verifyMember_admitted (show "b" ≠ "" by decide) rfl (verifyAdmission_sampleMember ..) rfl rfl rfl

theorem verifyMember_suspendedMember (states : List DeviceState) (store : Acl.Store)
    (owner key : PublicKey) (now : Time) (apps : List App) (wgPublicKeys : List String) :
    verifyMember (sampleEnv states) store owner now apps
        (sampleMember key wgPublicKeys (some (sampleStatus owner "b" "suspended"))) =
      .ok (sampleRow (sampleMember key wgPublicKeys (some (sampleStatus owner "b" "suspended")))
        (["s"].filterMap (appByID apps)) "suspended" wgPublicKeys) :=
  verifyMember_admitted (show "b" ≠ "" by decide) rfl (verifyAdmission_sampleMember ..)
    (verifyStatus_sample states store rfl (Or.inr rfl)) rfl rfl

/-- A device state verifies if its apps and its members do. -/
theorem verifyState_sample (hApps : verifyApps (sampleEnv states) store owner st.apps = .ok apps)
    {rows : List VerifiedMember}
    (hMembers : List.Forall₂ (fun dm row => verifyMember (sampleEnv states) store owner now apps dm =
      .ok row) st.members rows) :
    verifyState (sampleEnv states) store owner now st = .ok ⟨apps, rows⟩ :=
  bind_eq_ok.mpr ⟨apps, hApps, bind_eq_ok.mpr ⟨rows, each_eq_ok.mpr hMembers, rfl⟩⟩

/-- Such a device state is installed without verifying it item by item. -/
theorem beginState_sample (states : List DeviceState) (now : Time) (st : DeviceState)
    (agent : Agent) (hDevice : st.deviceID = "d")
    (hApps : verifyApps (sampleEnv states) agent.store owner st.apps = .ok apps)
    (hNewer : agent.store.generation ≤ st.generation)
    (hPinned : agent.store.pinnedAdminPubKey = some owner) {rows : List VerifiedMember}
    (hMembers : List.Forall₂ (fun dm row => verifyMember (sampleEnv states) agent.store owner now
      apps dm = .ok row) st.members rows) :
    agent.beginState (sampleEnv states) now st =
      agent.install (sampleEnv states) now st.generation ⟨apps, rows⟩ :=
  beginState_of_verifies (fun h => h.2 hDevice) hNewer hPinned (verifyState_sample hApps hMembers)

/-- A WireGuard key as text. -/
def sampleWGKey (b : UInt8) : String := (sampleKey b).base64

/-- A member asks for a nonce for a WireGuard key, under correlation id `c`. -/
def sampleChallenge (key : PublicKey) (memberID wgPublicKey : String) (ts : Int) : TunnelMessage :=
  sampleCommand key memberID "c" (.obj [
    ("intent", .str ("wg:challenge-" ++ memberID ++ "-" ++ toString ts)),
    ("memberId", .str memberID), ("publicKey", .str wgPublicKey), ("ts", .num (Number.ofInt ts))])

/-- The member provisions the key it was challenged for with nonce `00`. -/
def sampleProvision (key : PublicKey) (memberID : String) (ts : Int) : TunnelMessage :=
  sampleCommand key memberID "c" (.obj [
    ("intent", .str ("wg:provision-" ++ memberID ++ "--00-" ++ toString ts)),
    ("nonce", .str "00"), ("ts", .num (Number.ofInt ts))])

/-- An event whose commands succeed. -/
def Input.succeeding (now : Time) (event : Event) : Input :=
  { now := now, exec := fun _ => true, event := event }

/-- A member asks for a nonce for a key and provisions it, `ts` seconds after time zero. -/
def sampleProvisioning (key : PublicKey) (memberID wgPublicKey : String) (ts : Int) : List Input :=
  [.succeeding (ts * 1000000000) (.challenge (some "00") (sampleChallenge key memberID wgPublicKey ts)),
    .succeeding (ts * 1000000000) (.provision (sampleProvision key memberID ts))]

/-- A device state the agent can read is applied without decoding it. -/
theorem step_sampleState (h : Reads states st) (now : Time) (agent : Agent) :
    agent.step (sampleEnv states) (.succeeding now (.deviceState (sampleState st))) =
      (completeApply (sampleEnv states) (fun _ => true)
        (agent.beginState (sampleEnv states) now st)).1 :=
  congrArg Prod.fst
    (handleDeviceState_of_decode (decodeDeviceState_sample h) now (fun _ => true) agent)

theorem appliedState_sample (h : Reads states st) {agent : Agent}
    (hApplied : (completeApply (sampleEnv states) (fun _ => true)
      (agent.beginState (sampleEnv states) now st)).2.isApplied = true) :
    agent.appliedState (sampleEnv states) (.succeeding now (.deviceState (sampleState st))) =
      some st := by
  have hDecode := decodeDeviceState_sample h
  rw [← handleDeviceState_of_decode hDecode] at hApplied
  exact (if_pos hApplied).trans hDecode

/-- An agent with the owner and no client. -/
def ownerAgent : Agent :=
  { Agent.fresh (sampleEnv []) (some (sampleKey 1)) with
    store := Acl.Store.rebuildIndexes { Acl.Store.new with
      members := [initialEntry (sampleOwner (sampleKey 1) [])] } }

end Tunnel
