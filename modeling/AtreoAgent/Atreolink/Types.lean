import AtreoAgent.Codec.Base64
import Mathlib.Data.Finmap

/-! The records the agent exchanges with the coordination service and keeps in its
access list. A pointer that may be nil is an `Option`, and so is a slice where nil
and empty are told apart. -/
namespace Atreolink

open Codec

/-- A Go map with string keys. -/
abbrev StringMap (α : Type) := Finmap fun _ : String => α

/-- Entries made one after the other under distinct keys are all there, and nothing else
changes. -/
theorem StringMap.lookup_foldl_insert {α β : Type} {key : β → String} (value : β → α) {bs : List β}
    (hDistinct : (bs.map key).Nodup) (m : StringMap α) :
    (∀ k ∉ bs.map key,
      (bs.foldl (fun m b => m.insert (key b) (value b)) m).lookup k = m.lookup k) ∧
    ∀ b ∈ bs, (bs.foldl (fun m b => m.insert (key b) (value b)) m).lookup (key b) =
      some (value b) := by
  induction bs generalizing m with
  | nil => exact ⟨fun _ _ => rfl, fun b hb => by cases hb⟩
  | cons b bs ih =>
      obtain ⟨hNew, hRest⟩ := List.nodup_cons.mp hDistinct
      obtain ⟨hOthers, hEntered⟩ := ih hRest (m.insert (key b) (value b))
      refine ⟨fun k hk => ?_, fun c hc => ?_⟩
      · rw [List.map_cons, List.mem_cons, not_or] at hk
        rw [List.foldl_cons, hOthers k hk.2, Finmap.lookup_insert_of_ne _ hk.1]
      · rcases List.mem_cons.mp hc with rfl | hc
        · rw [List.foldl_cons, hOthers _ hNew, Finmap.lookup_insert]
        · exact hEntered c hc

/-- Nanoseconds since the epoch. The zero `time.Time` is `none` of `Option Time`. -/
abbrev Time := Int

/-- A text as base64, and back. -/
def encode64 (bs : Bytes) : String :=
  String.ofList ((base64Encode bs).map fun b => Char.ofNat b.toNat)

def decode64 (s : String) : Option Bytes := base64Decode (utf8 s)

/-- An Ed25519 public key. -/
structure PublicKey where
  bytes : Bytes
  size : bytes.length = 32
  deriving DecidableEq

def PublicKey.base64 (k : PublicKey) : String := encode64 k.bytes

/-- The key a base64 text stands for, if it has the right size. -/
def decodeEd25519 (b64 : String) : Option PublicKey :=
  (decode64 b64).bind fun raw => if h : raw.length = 32 then some ⟨raw, h⟩ else none

/-- An app of the catalogue. `type` is `port` for a raw host port and empty or
`proxy` for an HTTP service. -/
structure App where
  id : String
  name : String
  slug : String
  internalUrl : String
  icon : String
  type : String
  port : Int
  protocol : String
  deriving DecidableEq, Repr

def App.isPort (a : App) : Bool := a.type = "port"

structure JoinAttestation where
  invitePayload : String
  ownerSig : String
  acceptanceSig : String
  deriving DecidableEq, Repr

/-- The agent's durable record of an admission. -/
structure AdmittanceCertificate where
  memberID : String
  identityKey : String
  nasPubkey : String
  admittedAt : Int
  attestationHash : String
  initialAllowedAppIDs : Option (List String)
  signature : String
  deriving DecidableEq, Repr

structure ClientRecord where
  wgPublicKey : String
  tunnelIP : String := ""
  tunnelIPv6 : String := ""
  label : String := ""
  platform : String := ""
  endpointType : String := ""
  deriving DecidableEq, Repr

structure MemberACLEntry where
  memberID : String
  userID : String
  memberName : String
  email : String
  role : String
  identityKey : String
  joinAttestation : Option JoinAttestation
  admittance : Option AdmittanceCertificate
  clients : List ClientRecord
  allowedApps : List App
  status : String
  deriving DecidableEq, Repr

/-- Admins and owners share their privileges. -/
def MemberACLEntry.isAdmin (m : MemberACLEntry) : Bool := m.role = "admin" || m.role = "owner"

/-- A message of the tunnel. -/
structure TunnelMessage where
  type : String
  correlationID : String
  payload : Bytes
  signerID : String
  signature : String
  deriving DecidableEq, Repr

/-- A signed envelope inside a device state. -/
structure DSEnvelope where
  payload : Bytes
  signerID : String
  signature : String
  deriving DecidableEq, Repr

def DSEnvelope.asMessage (e : DSEnvelope) (msgType : String) : TunnelMessage :=
  { type := msgType, correlationID := "", payload := e.payload, signerID := e.signerID,
    signature := e.signature }

structure TunnelIPLease where
  deviceID : String
  wgPublicKey : String
  tunnelIP : String
  nasSignature : String
  deriving DecidableEq, Repr

structure DSClient where
  wgPublicKey : String
  label : String
  platform : String
  registrationEnvelope : Option DSEnvelope
  ipLease : Option TunnelIPLease
  endpointType : String
  deriving DecidableEq, Repr

structure DSMember where
  memberID : String
  userID : String
  memberName : String
  email : String
  role : String
  identityKey : String
  joinAttestation : Option JoinAttestation
  admittance : Option AdmittanceCertificate
  statusEnvelope : Option DSEnvelope
  permissionsEnvelope : Option DSEnvelope
  clients : List DSClient
  deriving DecidableEq, Repr

def DSMember.isAdmin (m : DSMember) : Bool := m.role = "admin" || m.role = "owner"

/-- An app of a device state. Only its envelope counts. -/
structure DSApp where
  envelope : Option DSEnvelope
  deriving DecidableEq, Repr

structure DSCustomDomain where
  envelope : DSEnvelope
  deriving DecidableEq, Repr

/-- The whole access list, as served by the coordination service. The generation is
not signed. -/
structure DeviceState where
  deviceID : String
  generation : Int
  members : List DSMember
  apps : List DSApp
  customDomain : Option DSCustomDomain := none
  deriving DecidableEq, Repr

theorem utf8_encode64 (bs : Bytes) : utf8 (encode64 bs) = base64Encode bs := by
  have hAll := fun b hb => (base64Encode_plain bs b hb).2.2
  rw [encode64, utf8_ofList]
  generalize base64Encode bs = cs at hAll
  induction cs with
  | nil => rfl
  | cons b cs ih =>
      obtain ⟨hHead, hTail⟩ := List.forall_mem_cons.mp hAll
      rw [List.map_cons, List.flatMap_cons, encode_ascii hHead, ih hTail]
      rfl

@[simp] theorem decode64_encode64 (bs : Bytes) : decode64 (encode64 bs) = some bs := by
  rw [decode64, utf8_encode64, base64Decode_encode]

@[simp] theorem decodeEd25519_base64 (k : PublicKey) : decodeEd25519 k.base64 = some k := by
  rw [decodeEd25519, PublicKey.base64, decode64_encode64, Option.bind_some, dif_pos k.size]

end Atreolink
