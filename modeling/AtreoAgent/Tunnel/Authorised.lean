import AtreoAgent.Tunnel.Rows
import AtreoAgent.Tunnel.Sample

/-! What an applied device state installs was authorised. Each branch of the
verification phase is traced to the signature it checked: apps, status and permissions
to the pinned owner key, admission to a certificate of this agent, clients to the
identity key of their member. -/
namespace Tunnel

open Codec Json Atreolink WireGuard Fallible

variable {env : Env} {store : Acl.Store} {ownerPub : PublicKey} {now : Time}

/-- The canonical bytes of the payload are signed with the key. -/
def Signed (env : Env) (key : PublicKey) (e : DSEnvelope) : Prop :=
  ∃ canon sig, Canonjson.marshalRaw e.payload = .ok canon ∧ decode64 e.signature = some sig ∧
    env.verify key canon sig = true

/-- The app is the one an envelope with the intent of this device carries, signed by the
owner. -/
def SignedApp (env : Env) (ownerPub : PublicKey) (app : App) : Prop :=
  ∃ (e : DSEnvelope) (p : AppUpsertedPayload),
    PayloadType.appUpserted.unmarshal e.payload = some p ∧ Signed env ownerPub e ∧
      p.intent = appIntent env p ∧ p.app = app

/-- A registration of the WG key for the member, signed with the identity key. -/
def SignedRegistration (env : Env) (identity : PublicKey) (memberID wgPublicKey : String) : Prop :=
  ∃ (e : DSEnvelope) (p : ClientRegisterPayload),
    PayloadType.clientRegister.unmarshal e.payload = some p ∧ Signed env identity e ∧
      p.intent = registerIntent env p wgPublicKey ∧ p.memberID = memberID ∧
      p.publicKey = wgPublicKey

/-- A status envelope for the member, signed by the owner. -/
def SignedStatus (env : Env) (ownerPub : PublicKey) (memberID status : String) : Prop :=
  ∃ (e : DSEnvelope) (p : MemberStatusPayload),
    PayloadType.memberStatus.unmarshal e.payload = some p ∧ Signed env ownerPub e ∧
      p.intent = statusIntent env p ∧ p.memberID = memberID ∧ p.status = status

/-- The app ids a row may have: those of a permissions envelope signed by the owner, or
without an envelope those of the certificate. -/
def GrantedIDs (env : Env) (ownerPub : PublicKey) (dm : DSMember) (m : MemberACLEntry)
    (ids : List String) : Prop :=
  match dm.permissionsEnvelope with
  | some e =>
      ∃ p, PayloadType.memberPermissions.unmarshal e.payload = some p ∧ Signed env ownerPub e ∧
        p.intent = permissionsIntent env p ∧ p.memberID = m.memberID ∧
        ids = p.allowedAppIDs.getD []
  | none => ∃ cert, m.admittance = some cert ∧ ids = cert.initialAllowedAppIDs.getD []

/-- The certificate of the row is one this agent signed for it. -/
def Admitted (env : Env) (m : MemberACLEntry) : Prop :=
  ∃ cert, m.admittance = some cert ∧
    verifyAdmittanceCertificate env cert m.memberID m.identityKey env.agentKey.base64 = .ok ()

variable {e : DSEnvelope} {app : App} {vApps : List App} {dm : DSMember} {agent : Agent}
  {msg : TunnelMessage}

theorem signed_of_verifyAuthorization {msgType : String} {key : PublicKey}
    {fields : CommandEnvelopeFields} {intent : String}
    (h : verifyAuthorization env store (e.asMessage msgType) (.attested key) fields intent = .ok ()) :
    fields.intent = intent ∧ Signed env key e := by
  unfold verifyAuthorization at h
  split at h
  · cases h
  next hIntent =>
    refine ⟨not_not.mp hIntent, ?_⟩
    dsimp only [CommandAuth.verify, verifySignatureAgainst, checkSignature, DSEnvelope.asMessage] at h
    split at h
    · cases h
    · split at h
      · cases h
      next sig hSig =>
        split at h
        · cases h
        next canon hCanon =>
          split at h
          next hVerify => exact ⟨canon, sig, hCanon, hSig, hVerify⟩
          · cases h

theorem signedApp_of_verifyApp (h : verifyApp env store ownerPub e = .ok app) :
    SignedApp env ownerPub app := by
  obtain ⟨p, hPayload, h⟩ := bind_eq_ok.mp h
  obtain ⟨_, hAuth, h⟩ := bind_eq_ok.mp h
  obtain ⟨_, _, h⟩ := bind_eq_ok.mp h
  obtain ⟨hIntent, hSigned⟩ := signed_of_verifyAuthorization (mapError_eq_ok.mp hAuth)
  exact ⟨e, p, require_eq_ok.mp hPayload, hSigned, hIntent, Except.ok.inj h⟩

theorem signedApp_of_verifyApps {apps : List DSApp}
    (h : verifyApps env store ownerPub apps = .ok vApps) :
    ∀ app ∈ vApps, SignedApp env ownerPub app := by
  intro app hApp
  obtain ⟨e, _, he⟩ := exists_of_mem_each h hApp
  exact signedApp_of_verifyApp he

theorem mem_of_appByID {id : String} (h : appByID vApps id = some app) :
    app ∈ vApps ∧ app.id = id := by
  refine ⟨List.mem_reverse.mp (List.mem_of_find?_eq_some h), ?_⟩
  simpa using List.find?_some h

/-- Whichever branch admits a member that is not an admin, its certificate is accepted. -/
theorem admitted_of_verifyAdmission {admission : Admission}
    (h : verifyAdmission env store ownerPub now dm = .ok admission) (hMember : dm.isAdmin = false) :
    ∃ cert, admission.admittance = some cert ∧
      admission.initialAppIDs = cert.initialAllowedAppIDs.getD [] ∧
      verifyAdmittanceCertificate env cert dm.memberID dm.identityKey env.agentKey.base64 =
        .ok () := by
  obtain ⟨cert, hSome, hIDs, ⟨_, hCert⟩ | ⟨_, hCert⟩ | ⟨_, _, hAdmit⟩⟩ :=
    verifyAdmission_eq_ok h hMember
  · exact ⟨cert, hSome, hIDs, hCert⟩
  · exact ⟨cert, hSome, hIDs, hCert⟩
  · -- A certificate the agent has just minted is one it accepts.
    obtain ⟨_, _, _, hCert⟩ := admitMember_eq_ok hAdmit
    exact ⟨cert, hSome, hIDs, hCert⟩

theorem signedStatus_of_verifyStatus (h : verifyStatus env store ownerPub dm = .ok "suspended") :
    SignedStatus env ownerPub dm.memberID "suspended" := by
  rcases verifyStatus_eq_ok h with ⟨_, hActive⟩ | ⟨e, p, _, hPayload, hAddress, _, hAuth, hStatus⟩
  · simp at hActive
  · obtain ⟨hIntent, hSigned⟩ := signed_of_verifyAuthorization hAuth
    exact ⟨e, p, hPayload, hSigned, hIntent, hAddress, hStatus⟩

theorem signedRegistration_of_verifyClient {identity : PublicKey} {memberID : String}
    {dc : DSClient} {vc : VerifiedClient}
    (h : verifyClient env store identity memberID dc e = .ok vc) :
    SignedRegistration env identity memberID vc.record.wgPublicKey := by
  obtain ⟨p, hPayload, h⟩ := bind_eq_ok.mp h
  obtain ⟨_, hAuth, h⟩ := bind_eq_ok.mp h
  obtain ⟨_, hMatch, h⟩ := bind_eq_ok.mp h
  obtain ⟨hIntent, hSigned⟩ := signed_of_verifyAuthorization (mapError_eq_ok.mp hAuth)
  obtain ⟨hMember, hKey⟩ := of_decide_eq_true (ensure_eq_ok.mp hMatch)
  cases h
  exact ⟨e, p, require_eq_ok.mp hPayload, hSigned, hIntent, hMember, hKey⟩

theorem grantedIDs_of_verifyPermissions {m : MemberACLEntry} {initialAppIDs : List String}
    {permitted : Option (List String)}
    (h : verifyPermissions env store ownerPub dm = .ok permitted) (hMember : dm.isAdmin = false)
    (hID : m.memberID = dm.memberID)
    (hApps : m.allowedApps = allowedApps vApps dm initialAppIDs permitted)
    (hCert : ∃ cert, m.admittance = some cert ∧ initialAppIDs = cert.initialAllowedAppIDs.getD []) :
    ∃ ids, GrantedIDs env ownerPub dm m ids ∧
      ∀ app ∈ m.allowedApps, app.id ∈ ids ∧ app ∈ vApps := by
  have hSelected : ∀ ids : List String, ∀ app ∈ ids.filterMap (appByID vApps),
      app.id ∈ ids ∧ app ∈ vApps := by
    intro ids app hApp
    obtain ⟨id, hMem, hFound⟩ := List.mem_filterMap.mp hApp
    obtain ⟨hCatalogue, rfl⟩ := mem_of_appByID hFound
    exact ⟨hMem, hCatalogue⟩
  unfold GrantedIDs
  rcases verifyPermissions_eq_ok h with ⟨hEnvelope, rfl⟩ | ⟨e, p, hEnvelope, hPayload, hAddress, hAuth, rfl⟩
  · rw [hEnvelope]
    obtain ⟨cert, hAdmittance, rfl⟩ := hCert
    refine ⟨_, ⟨cert, hAdmittance, rfl⟩, ?_⟩
    rw [hApps, allowedApps, if_neg (by simp [hMember])]
    exact hSelected _
  · rw [hEnvelope]
    obtain ⟨hIntent, hSigned⟩ := signed_of_verifyAuthorization hAuth
    refine ⟨_, ⟨p, hPayload, hSigned, hIntent, hAddress.trans hID.symm, rfl⟩, ?_⟩
    rw [hApps]
    exact hSelected _

theorem mem_allowedApps {initialAppIDs : List String} {permitted : Option (List String)}
    (h : app ∈ allowedApps vApps dm initialAppIDs permitted) : app ∈ vApps := by
  have hSelected : ∀ ids : List String, app ∈ ids.filterMap (appByID vApps) → app ∈ vApps := by
    intro ids hApp
    obtain ⟨id, _, hFound⟩ := List.mem_filterMap.mp hApp
    exact (mem_of_appByID hFound).1
  unfold allowedApps at h
  split at h
  · exact hSelected _ h
  · split at h
    · exact h
    · exact hSelected _ h

/-- Everything a row of the access list grants has been signed for. `apps` is the
catalogue, `dm` the member of the device state the row comes from. -/
structure AuthorisedRow (env : Env) (ownerPub : PublicKey) (apps : List App) (dm : DSMember)
    (m : MemberACLEntry) : Prop where
  signedApps : ∀ app ∈ m.allowedApps, SignedApp env ownerPub app
  admitted : m.isAdmin = false → Admitted env m
  pinned : m.isAdmin = true → m.identityKey = ownerPub.base64
  registered : ∀ c ∈ m.clients, ∃ identity, decodeEd25519 m.identityKey = some identity ∧
    SignedRegistration env identity m.memberID c.wgPublicKey
  suspended : m.status = "suspended" → SignedStatus env ownerPub m.memberID "suspended"
  granted : m.isAdmin = false → ∃ ids, GrantedIDs env ownerPub dm m ids ∧
    ∀ app ∈ m.allowedApps, app.id ∈ ids ∧ app ∈ apps

theorem Accepted.signedApps (a : Accepted env now agent msg) :
    ∀ app ∈ a.verified.apps, SignedApp env a.ownerPub app := by
  obtain ⟨vApps, hApps, hRest⟩ := bind_eq_ok.mp a.verifies
  obtain ⟨vMembers, _, hState⟩ := bind_eq_ok.mp hRest
  rw [← Except.ok.inj hState]
  exact signedApp_of_verifyApps hApps

theorem Accepted.pinnedRows (a : Accepted env now agent msg) : Acl.AdminRows a.ownerPub a.members :=
  Acl.Store.adminRows_of_validate (Acl.Store.reconcile_eq_ok a.reconciles).1 a.pinned

/-- A verified row with addresses is authorised. -/
theorem Accepted.authorisedRow (a : Accepted env now agent msg) {m : MemberACLEntry}
    (hm : m ∈ a.members) :
    ∃ dm ∈ a.st.members, dm.memberID = m.memberID ∧
      AuthorisedRow env a.ownerPub a.verified.apps dm m := by
  obtain ⟨dm, hdm, v, ⟨hRow, hAddressed⟩, hVerify⟩ := a.exists_verified hm
  obtain ⟨admission, identity, status, permitted, clients, hAdmission, hIdentity, hStatus,
    hPermitted, hClients, hEntry⟩ := verifyMember_eq_ok hVerify
  rw [hEntry] at hRow hAddressed
  have hID : m.memberID = dm.memberID := by rw [hRow]; rfl
  have hKey : m.identityKey = dm.identityKey := by rw [hRow]; rfl
  have hRole : m.isAdmin = dm.isAdmin := by rw [hRow]; rfl
  have hApps : m.allowedApps = allowedApps a.verified.apps dm admission.initialAppIDs permitted := by
    rw [hRow]
  have hCert : m.admittance = admission.admittance := by rw [hRow]
  have hState : m.status = status := by rw [hRow]
  refine ⟨dm, hdm, hID.symm, ?_, ?_, a.pinnedRows m hm, ?_, ?_, ?_⟩
  · intro app hApp
    rw [hApps] at hApp
    exact a.signedApps app (mem_allowedApps hApp)
  · intro hMember
    obtain ⟨cert, hSome, _, hOk⟩ := admitted_of_verifyAdmission hAdmission (hRole ▸ hMember)
    exact ⟨cert, hCert.trans hSome, by rw [hID, hKey]; exact hOk⟩
  · intro c hc
    obtain ⟨d, hd, hcd⟩ := exists_left hAddressed hc
    obtain ⟨vc, hvc, rfl⟩ := List.mem_map.mp hd
    obtain ⟨p, _, hp⟩ := exists_of_mem_each hClients hvc
    refine ⟨identity, by rw [hKey]; exact hIdentity, ?_⟩
    rw [hID, hcd.wgPublicKey]
    exact signedRegistration_of_verifyClient hp
  · intro hSuspended
    rw [hID]
    rw [← hState, hSuspended] at hStatus
    exact signedStatus_of_verifyStatus hStatus
  · intro hMember
    obtain ⟨cert, hSome, hIDs, _⟩ := admitted_of_verifyAdmission hAdmission (hRole ▸ hMember)
    exact grantedIDs_of_verifyPermissions hPermitted (hRole ▸ hMember) hID hApps
      ⟨cert, hCert.trans hSome, hIDs⟩

/-- Whatever the agent held before, all that is in the access list after an applied
device state was signed for: by the owner whose key is pinned, by this agent, or by the
member. -/
theorem applied_state_authorised (env : Env) (now : Time) (exec : List String → Bool)
    (agent : Agent) (msg : TunnelMessage) (pending : List AdmittanceCertificate)
    (hApplied : (agent.handleDeviceState env now exec msg).2 = .applied pending) :
    ∃ st ownerPub, decodeDeviceState env msg = some st ∧
      agent.store.pinnedAdminPubKey = some ownerPub ∧
      (∀ app ∈ (agent.handleDeviceState env now exec msg).1.store.apps,
        SignedApp env ownerPub app) ∧
      ∀ m ∈ (agent.handleDeviceState env now exec msg).1.store.members,
        ∃ dm ∈ st.members, dm.memberID = m.memberID ∧
          AuthorisedRow env ownerPub (agent.handleDeviceState env now exec msg).1.store.apps dm m := by
  rcases handleDeviceState_cases env now exec agent msg with
    ⟨r, hr, hNot, _⟩ | ⟨c, e, hr, _⟩ | ⟨a, hr⟩
  · rw [hr] at hApplied
    exact absurd hApplied (hNot pending)
  · rw [hr] at hApplied
    cases hApplied
  · have hStore : (agent.handleDeviceState env now exec msg).1.store =
        a.store.setAppliedGeneration a.st.generation now := by rw [hr, a.result_store]
    have hMembers : (agent.handleDeviceState env now exec msg).1.store.members = a.members := by
      rw [hStore]
      exact a.store_members.1
    have hApps : (agent.handleDeviceState env now exec msg).1.store.apps = a.verified.apps := by
      rw [hStore]
      exact a.store_members.2
    rw [hMembers, hApps]
    exact ⟨a.st, a.ownerPub, a.decodes, a.pinned, a.signedApps, fun m hm => a.authorisedRow hm⟩

def sampleAppDoc : Doc :=
  .obj [
    ("app", .obj [("id", .str "s"), ("port", .num (Number.ofInt 8080)), ("protocol", .str "http"),
      ("slug", .str "web"), ("type", .str "port")]),
    ("intent", .str "app:upserted-d-s"), ("ts", .num (Number.ofInt 0))]

/-- An app behind a raw port, signed by the owner. -/
def sampleApp (owner : PublicKey) : DSApp := { envelope := some (sampleEnvelope owner "a" sampleAppDoc) }

theorem height_sampleAppDoc : sampleAppDoc.height ≤ maxNestingDepth := by
  simp [sampleAppDoc, Doc.height, Doc.heightMembers, maxNestingDepth]

/-- The app of the sample envelope. -/
def webApp : App :=
  { id := "s", name := "", slug := "web", internalUrl := "", icon := "", type := "port", port := 8080
    protocol := "http" }

def sampleAppPayload : AppUpsertedPayload :=
  { intent := "app:upserted-d-s", timestamp := 0, deviceID := "", app := webApp }

theorem unmarshal_sampleAppDoc :
    PayloadType.appUpserted.unmarshal (sampleAppDoc.print true) = some sampleAppPayload := by
  rw [PayloadType.unmarshal, unmarshal, parseWhole_print true height_sampleAppDoc]
  rfl

theorem verifyApps_sampleApp (states : List DeviceState) (store : Acl.Store) (owner : PublicKey) :
    verifyApps (sampleEnv states) store owner [sampleApp owner] = .ok [webApp] := by
  have hPayload : (sampleEnvelope owner "a" sampleAppDoc).payload = sampleAppDoc.print true := rfl
  have hIntent : appIntent (sampleEnv states) sampleAppPayload = sampleAppPayload.intent :=
    show "app:upserted-" ++ "d" ++ "-" ++ "s" = "app:upserted-d-s" by decide +kernel
  refine each_eq_ok.mpr (.cons ?_ .nil)
  rw [verifyApp, hPayload, unmarshal_sampleAppDoc]
  refine bind_eq_ok.mpr ⟨_, rfl, bind_eq_ok.mpr ⟨(), mapError_eq_ok.mpr ?_,
    bind_eq_ok.mpr ⟨(), rfl, rfl⟩⟩⟩
  rw [verifyAuthorization, hIntent, if_neg (not_not.mpr rfl)]
  exact verifySignature_sample states owner (by decide) height_sampleAppDoc rfl _

/-- The owner with a client, a suspended member and an app. -/
def household : DeviceState :=
  { deviceID := "d", generation := 1
    members := [sampleOwner (sampleKey 1) ["k"],
      sampleMember (sampleKey 2) [] (some (sampleStatus (sampleKey 1) "b" "suspended"))]
    apps := [sampleApp (sampleKey 1)] }

def householdEnv : Env := sampleEnv [household]

/-- The agent of the household, freshly paired. -/
def householdAgent : Agent := sampleAgent householdEnv

theorem household_authorised :
    ∃ pending,
      (householdAgent.handleDeviceState householdEnv 0 (fun _ => true) (sampleState household)).2 =
        .applied pending ∧
      ∃ st ownerPub, decodeDeviceState householdEnv (sampleState household) = some st ∧
        householdAgent.store.pinnedAdminPubKey = some ownerPub ∧
        (∀ app ∈ (householdAgent.handleDeviceState householdEnv 0 (fun _ => true)
            (sampleState household)).1.store.apps, SignedApp householdEnv ownerPub app) ∧
        ∀ m ∈ (householdAgent.handleDeviceState householdEnv 0 (fun _ => true)
            (sampleState household)).1.store.members,
          ∃ dm ∈ st.members, dm.memberID = m.memberID ∧
            AuthorisedRow householdEnv ownerPub (householdAgent.handleDeviceState householdEnv 0
              (fun _ => true) (sampleState household)).1.store.apps dm m := by
  have hDecode : decodeDeviceState householdEnv (sampleState household) = some household :=
    decodeDeviceState_sample (reads_head _ _)
  have hBegin := beginState_sample [household] 0 household householdAgent rfl
    (verifyApps_sampleApp ..) (by decide) rfl
    (.cons (verifyMember_sampleOwner ..) (.cons (verifyMember_suspendedMember ..) .nil))
  have hApplied : (householdAgent.handleDeviceState householdEnv 0 (fun _ => true)
      (sampleState household)).2.isApplied = true := by
    rw [handleDeviceState_of_decode hDecode, householdEnv, hBegin]
    decide +kernel
  obtain ⟨pending, hResult⟩ := DeviceStateResult.exists_applied hApplied
  exact ⟨pending, hResult, applied_state_authorised householdEnv 0 (fun _ => true) householdAgent
    (sampleState household) pending hResult⟩

end Tunnel
