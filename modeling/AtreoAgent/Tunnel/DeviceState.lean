import AtreoAgent.Tunnel.Agent
import AtreoAgent.Tunnel.Attestation

/-! The apply of a device state (`HandleDeviceState`). Every item is verified first;
then addresses are bound, the access list is replaced and the peers follow. The peer
operations are listed before they are carried out. -/
namespace Tunnel

open Codec Json Atreolink WireGuard Fallible

inductive AppError where
  /-- `app:upserted: port … out of range (1-65535)` -/
  | port (port : Int)
  /-- `app:upserted: protocol … not allowed (tcp/udp/http/https)` -/
  | protocol (protocol : String)
  /-- `app:upserted: internalUrl … is not a valid URL` -/
  | url (raw : String)
  /-- `app:upserted: internalUrl scheme … not allowed (only http/https)` -/
  | scheme (scheme : String)
  /-- `app:upserted: internalUrl … has no host` -/
  | host (raw : String)
  deriving DecidableEq, Repr

/-- Why a device state is refused; `device:state rejected: …` in all cases but the
first. -/
inductive DeviceStateError where
  | decode
  | deviceID (got expected : String)
  /-- `no pinned owner pubkey (agent not paired?)` -/
  | notPaired
  | appPayload
  | app (id : String) (e : VerifyError)
  | appInvalid (id : String) (e : AppError)
  | admittance (memberID : String) (e : AdmittanceError)
  | existingAdmittance (memberID : String) (e : AdmittanceError)
  /-- `no admittance cert and no joinAttestation` -/
  | noAttestation (memberID : String)
  | admission (memberID : String) (e : AttestationError)
  | invitePayload (memberID : String)
  | mint (memberID : String) (e : AdmittanceError)
  | identityKey (memberID : String)
  | statusPayload (memberID : String)
  | statusAddress (memberID addressed : String)
  | invalidStatus (memberID status : String)
  | status (memberID : String) (e : VerifyError)
  | permissionsPayload (memberID : String)
  | permissionsAddress (memberID addressed : String)
  | permissions (memberID : String) (e : VerifyError)
  | clientPayload (memberID : String)
  | client (memberID wgPublicKey : String) (e : VerifyError)
  /-- `client registration payload mismatch` -/
  | registration (memberID : String)
  | allocate (wgPublicKey : String)
  | reconcile (e : Acl.Error)
  deriving DecidableEq, Repr

/-- Eight MiB of decompressed state. -/
def stateLimit : Nat := 8 * 2 ^ 20

def decodeDeviceState (env : Env) (msg : TunnelMessage) : Option DeviceState :=
  if msg.type = "device:state:gz" then do
    let gzBytes ← env.unmarshalBytes msg.payload
    let raw ← env.gunzip gzBytes
    env.unmarshalDeviceState (raw.take stateLimit)
  else env.unmarshalDeviceState msg.payload

def validateInternalURL (env : Env) (raw : String) : Except AppError Unit :=
  match env.parseURL raw with
  | none => .error (.url raw)
  | some (scheme, host) =>
      if scheme ≠ "http" ∧ scheme ≠ "https" then .error (.scheme scheme)
      else if host = "" then .error (.host raw)
      else .ok ()

def validateApp (env : Env) (a : App) : Except AppError Unit :=
  if a.isPort then
    if a.port < 1 ∨ 65535 < a.port then .error (.port a.port)
    else if a.protocol ∈ ["tcp", "udp", "http", "https"] then .ok ()
    else .error (.protocol a.protocol)
  else validateInternalURL env a.internalUrl

def appIntent (env : Env) (p : AppUpsertedPayload) : String :=
  "app:upserted-" ++ env.deviceID ++ "-" ++ p.app.id

def statusIntent (env : Env) (p : MemberStatusPayload) : String :=
  "member:status-" ++ env.deviceID ++ "-" ++ p.memberID ++ "-" ++ p.status ++ "-" ++
    toString p.timestamp

def permissionsIntent (env : Env) (p : MemberPermissionsPayload) : String :=
  "member:permissions-" ++ env.deviceID ++ "-" ++ p.memberID ++ "-" ++ toString p.timestamp

def registerIntent (env : Env) (p : ClientRegisterPayload) (wgPublicKey : String) : String :=
  "wg:client-register-" ++ env.deviceID ++ "-" ++ p.memberID ++ "-" ++ wgPublicKey ++ "-" ++
    toString p.timestamp

section Verification

variable (env : Env) (store : Acl.Store) (ownerPub : PublicKey)

def verifyApp (envelope : DSEnvelope) : Except DeviceStateError App := do
  let ap ← require .appPayload (PayloadType.appUpserted.unmarshal envelope.payload)
  (verifyAuthorization env store (envelope.asMessage "app:upserted") (.attested ownerPub)
    ap.toCommandEnvelopeFields (appIntent env ap)).mapError (.app ap.app.id)
  (validateApp env ap.app).mapError (.appInvalid ap.app.id)
  .ok ap.app

/-- An app without an envelope is skipped. -/
def verifyApps (apps : List DSApp) : Except DeviceStateError (List App) :=
  each (verifyApp env store ownerPub) (apps.filterMap (·.envelope))

/-- Of several apps with one id the last counts. -/
def appByID (vApps : List App) (id : String) : Option App := vApps.reverse.find? (·.id = id)

/-- How a member was admitted: its certificate, and whether to send that upstream. -/
structure Admission where
  admittance : Option AdmittanceCertificate
  initialAppIDs : List String
  pending : Option AdmittanceCertificate
  deriving DecidableEq, Repr

def Admission.ofCertificate (cert : AdmittanceCertificate) (resend : Bool) : Admission :=
  { admittance := some cert
    initialAppIDs := cert.initialAllowedAppIDs.getD []
    pending := if resend then some cert else none }

/-- The row a member starts from. -/
def initialEntry (dm : DSMember) : MemberACLEntry :=
  { memberID := dm.memberID, userID := dm.userID, memberName := dm.memberName, email := dm.email,
    role := dm.role, identityKey := dm.identityKey, joinAttestation := none, admittance := none,
    clients := [], allowedApps := [], status := "active" }

/-- The certificate of a member that is in the store already. -/
def existingAdmittance (memberID : String) : Option AdmittanceCertificate :=
  (store.lookupByMemberID memberID).bind (·.admittance)

/-- Verify the invite chain and mint a certificate. -/
def admitMember (now : Time) (dm : DSMember) : Except DeviceStateError AdmittanceCertificate := do
  let att ← require (.noAttestation dm.memberID) dm.joinAttestation
  let inv ← (verifyJoinAttestation env { initialEntry dm with joinAttestation := some att }
    (some ownerPub) env.agentKey.base64 now).mapError (.admission dm.memberID)
  let inviteBytes ← require (.invitePayload dm.memberID) (decode64 att.invitePayload)
  (mintAdmittanceCertificate env dm.memberID dm.identityKey env.agentKey.base64 inviteBytes
    inv.allowedAppIDs now).mapError (.mint dm.memberID)

/-- A certificate of the agent, inbound or kept, is preferred over the invite chain.
Admins need none. -/
def verifyAdmission (now : Time) (dm : DSMember) : Except DeviceStateError Admission :=
  if dm.isAdmin then .ok { admittance := none, initialAppIDs := [], pending := none }
  else
    match dm.admittance with
    | some cert => do
        (verifyAdmittanceCertificate env cert dm.memberID dm.identityKey env.agentKey.base64).mapError
          (.admittance dm.memberID)
        .ok (.ofCertificate cert false)
    | none =>
        match existingAdmittance store dm.memberID with
        | some cert => do
            (verifyAdmittanceCertificate env cert dm.memberID dm.identityKey
              env.agentKey.base64).mapError (.existingAdmittance dm.memberID)
            .ok (.ofCertificate cert true)
        | none => do
            let cert ← admitMember env ownerPub now dm
            .ok (.ofCertificate cert true)

/-- The status an envelope sets; without one a member is active. -/
def verifyStatus (dm : DSMember) : Except DeviceStateError String :=
  match dm.statusEnvelope with
  | none => .ok "active"
  | some envelope => do
      let sp ← require (.statusPayload dm.memberID)
        (PayloadType.memberStatus.unmarshal envelope.payload)
      ensure (.statusAddress dm.memberID sp.memberID) (sp.memberID = dm.memberID)
      ensure (.invalidStatus dm.memberID sp.status) (sp.status = "active" ∨ sp.status = "suspended")
      (verifyAuthorization env store (envelope.asMessage "member:status") (.attested ownerPub)
        sp.toCommandEnvelopeFields (statusIntent env sp)).mapError (.status dm.memberID)
      .ok sp.status

/-- The app ids an envelope grants, if there is one. -/
def verifyPermissions (dm : DSMember) : Except DeviceStateError (Option (List String)) :=
  match dm.permissionsEnvelope with
  | none => .ok none
  | some envelope => do
      let pp ← require (.permissionsPayload dm.memberID)
        (PayloadType.memberPermissions.unmarshal envelope.payload)
      ensure (.permissionsAddress dm.memberID pp.memberID) (pp.memberID = dm.memberID)
      (verifyAuthorization env store (envelope.asMessage "member:permissions") (.attested ownerPub)
        pp.toCommandEnvelopeFields (permissionsIntent env pp)).mapError (.permissions dm.memberID)
      .ok (some (pp.allowedAppIDs.getD []))

/-- A client whose registration verified, and the address of a lease that did. -/
structure VerifiedClient where
  record : ClientRecord
  lease : Option (String × String)
  deriving DecidableEq, Repr

def verifyClient (memberPub : PublicKey) (memberID : String) (dc : DSClient) (envelope : DSEnvelope) :
    Except DeviceStateError VerifiedClient := do
  let cp ← require (.clientPayload memberID) (PayloadType.clientRegister.unmarshal envelope.payload)
  (verifyAuthorization env store (envelope.asMessage "wg:client-register") (.attested memberPub)
    cp.toCommandEnvelopeFields (registerIntent env cp dc.wgPublicKey)).mapError
      (.client memberID dc.wgPublicKey)
  ensure (.registration memberID) (cp.memberID = memberID ∧ cp.publicKey = dc.wgPublicKey)
  .ok {
    record :=
      { wgPublicKey := dc.wgPublicKey, label := dc.label, platform := dc.platform,
        endpointType := dc.endpointType }
    lease := dc.ipLease.bind fun lease =>
      match verifyTunnelIPLease env lease env.deviceID dc.wgPublicKey with
      | .ok () => some (dc.wgPublicKey, lease.tunnelIP)
      | .error _ => none }

/-- A client without a registration envelope is skipped. -/
def registeredClients (dm : DSMember) : List (DSClient × DSEnvelope) :=
  dm.clients.filterMap fun dc => dc.registrationEnvelope.map fun envelope => (dc, envelope)

structure VerifiedMember where
  entry : MemberACLEntry
  leases : List (String × String)
  pending : Option AdmittanceCertificate
  deriving DecidableEq, Repr

def allowedApps (vApps : List App) (dm : DSMember) (initialAppIDs : List String) :
    Option (List String) → List App
  | some ids => ids.filterMap (appByID vApps)
  | none => if dm.isAdmin then vApps else initialAppIDs.filterMap (appByID vApps)

def verifyMember (now : Time) (vApps : List App) (dm : DSMember) :
    Except DeviceStateError VerifiedMember := do
  let admission ← verifyAdmission env store ownerPub now dm
  let memberPub ← require (.identityKey dm.memberID) (decodeEd25519 dm.identityKey)
  let status ← verifyStatus env store ownerPub dm
  let permitted ← verifyPermissions env store ownerPub dm
  let clients ← each (fun c => verifyClient env store memberPub dm.memberID c.1 c.2)
    (registeredClients dm)
  .ok {
    entry := { initialEntry dm with
      admittance := admission.admittance
      status := status
      allowedApps := allowedApps vApps dm admission.initialAppIDs permitted
      clients := clients.map (·.record) }
    leases := clients.filterMap (·.lease)
    pending := admission.pending }

/-- A device state all of whose items verified. -/
structure VerifiedState where
  apps : List App
  members : List VerifiedMember
  deriving DecidableEq, Repr

def verifyState (now : Time) (st : DeviceState) : Except DeviceStateError VerifiedState := do
  let vApps ← verifyApps env store ownerPub st.apps
  let vMembers ← each (verifyMember env store ownerPub now vApps) st.members
  .ok { apps := vApps, members := vMembers }

end Verification

end Tunnel
