import AtreoAgent.Certs.Manager
import AtreoAgent.Tunnel.Verify

/-! The custom domain of a device state. Its envelope is signed by the owner and names
a zone; the intent binds the zone after normalisation, and the device. The zone gets a
certificate and a row in a store; without an envelope both go. -/
namespace Tunnel

open Codec Atreolink

def normaliseZone (lower : Char → Char) (zone : String) : String :=
  trimStart "*." (trimEnd "." (toLower lower (trimSpace zone)))

def customDomainIntent (env : Env) (zone : String) : String :=
  "custom-domain-set-" ++ env.deviceID ++ "-" ++ zone

/-- The checks of `reconcileCustomDomain` on an envelope: the zone it sets, if it passes
them. -/
def verifyCustomDomain (lower : Char → Char) (env : Env) (store : Acl.Store)
    (ownerPub : PublicKey) (envelope : DSEnvelope) : Option String :=
  match PayloadType.customDomainSet.unmarshal envelope.payload with
  | none => none
  | some p =>
      let zone := normaliseZone lower p.parentZone
      if zone = "" then none
      else
        match verifyAuthorization env store (envelope.asMessage "device:custom-domain-set")
            (.attested ownerPub) p.toCommandEnvelopeFields (customDomainIntent env zone) with
        | .error _ => none
        | .ok () => some zone

/-- An attested key is checked without the access list. -/
theorem verifyCustomDomain_store (lower : Char → Char) (env : Env) (store other : Acl.Store)
    (ownerPub : PublicKey) (envelope : DSEnvelope) :
    verifyCustomDomain lower env store ownerPub envelope =
      verifyCustomDomain lower env other ownerPub envelope := rfl

/-- The row of the custom-domain store. -/
structure CustomDomain where
  parentZone : String
  envelopePayload : Bytes
  envelopeOwnerSig : String
  verifiedAt : String
  deriving DecidableEq, Repr

/-- The file of the custom-domain store (`customdomain.go`). -/
inductive DomainFile where
  | missing
  /-- It does not parse. -/
  | corrupt
  | row (cd : CustomDomain)
  deriving DecidableEq, Repr

namespace DomainFile

/-- `none` is an error. -/
def get (readable : Bool) : DomainFile → Option (Option CustomDomain)
  | missing => some none
  | corrupt => none
  | row cd => if readable then some (if cd.parentZone = "" then none else some cd) else none

def set (written : Bool) (file : DomainFile) (cd : CustomDomain) : DomainFile :=
  if cd.parentZone = "" then file else if written then row cd else file

def clear (removed : Bool) (file : DomainFile) : DomainFile := if removed then missing else file

end DomainFile

/-- What `reconcileCustomDomain` works on; it does nothing if one of them is not set up. -/
structure Domains where
  certManager : Certs.Manager
  customDomainStore : DomainFile

/-- The outcomes of what it asks for: certificates, removing the directory of a suffix, and
the operations of the store. -/
structure DomainOps where
  tick : Certs.Tick
  removed : Bool
  readable : Bool
  written : Bool
  cleared : Bool
  /-- The time in RFC 3339. -/
  verifiedAt : String

namespace Domains

/-- The row, if `Get` gives one. -/
def existing (ops : DomainOps) (d : Domains) : Option CustomDomain :=
  (d.customDomainStore.get ops.readable).getD none

/-- Without an envelope, the zone of the row is no longer served. -/
def clearCustomDomain (lower : Char → Char) (ops : DomainOps) (d : Domains) : Domains :=
  match d.existing ops with
  | none => d
  | some row =>
      let m := d.certManager
      let (registry, disk) := m.registry.removeSuffix lower ops.removed m.disk row.parentZone
      { certManager := { m with registry := registry, disk := disk }
        customDomainStore := d.customDomainStore.clear ops.cleared }

/-- The zone of a verified envelope gets a certificate, and then the row. -/
def setCustomDomain (letters : Certs.Letters) (ops : DomainOps) (d : Domains) (zone : String)
    (envelope : DSEnvelope) : Domains :=
  if (d.existing ops).any (·.parentZone = zone) then d
  else
    let (m, attempt) := d.certManager.ensureCert letters ops.tick zone
    if attempt.ok then
      { certManager := m
        customDomainStore := d.customDomainStore.set ops.written
          { parentZone := zone, envelopePayload := envelope.payload
            envelopeOwnerSig := envelope.signature, verifiedAt := ops.verifiedAt } }
    else { d with certManager := m }

def reconcileCustomDomain (letters : Certs.Letters) (env : Env) (store : Acl.Store)
    (ownerPub : PublicKey) (ops : DomainOps) (d : Domains) : Option DSCustomDomain → Domains
  | none => d.clearCustomDomain letters.lower ops
  | some cd =>
      match verifyCustomDomain letters.lower env store ownerPub cd.envelope with
      | none => d
      | some zone => d.setCustomDomain letters ops zone cd.envelope

end Domains

theorem verifyCustomDomain_eq_some {lower : Char → Char} {env : Env} {store : Acl.Store}
    {ownerPub : PublicKey} {envelope : DSEnvelope} {zone : String}
    (h : verifyCustomDomain lower env store ownerPub envelope = some zone) :
    ∃ p, PayloadType.customDomainSet.unmarshal envelope.payload = some p ∧
      zone = normaliseZone lower p.parentZone ∧ zone ≠ "" ∧
      verifyAuthorization env store (envelope.asMessage "device:custom-domain-set")
        (.attested ownerPub) p.toCommandEnvelopeFields
        (customDomainIntent env (normaliseZone lower p.parentZone)) = .ok () := by
  unfold verifyCustomDomain at h
  split at h
  · cases h
  next p hDecode =>
    dsimp only at h
    split at h
    · cases h
    next hSome =>
      split at h
      · cases h
      next hVerify =>
        have hZone := (Option.some.inj h).symm
        exact ⟨p, hDecode, hZone, hZone ▸ hSome, hVerify⟩

end Tunnel
