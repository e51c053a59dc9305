import AtreoAgent.Codec.Base64
import AtreoAgent.Codec.Decimal

/-! The transcript the agent signs when it provisions a client. The fields are fed
to the hash one after the other with nothing between them, so the bytes fix the
fields only for inputs whose variable fields have the same lengths. -/
namespace Crypto

open Codec

/-- A Go string is a byte string here: nothing makes the fields valid UTF-8. -/
structure ProvisionTranscriptInput where
  nonceHex : Bytes
  clientPubKeyB64 : Bytes
  deviceID : Bytes
  serverPubKeyB64 : Bytes
  tunnelIP : Bytes
  tunnelIPv6 : Bytes
  endpoint : Bytes
  allowedIPs : Bytes
  persistentKeepalive : Int
  deriving DecidableEq

inductive TranscriptError where
  /-- `decode nonce hex: …` -/
  | nonceHex
  /-- `decode client pubkey: …` -/
  | clientPubKey
  /-- `decode server pubkey: …` -/
  | serverPubKey
  deriving DecidableEq, Repr

/-- The domain tag in front of the fields. -/
def transcriptTag : Bytes := utf8 "atreos-wg-server-v2"

def orError {α : Type} (e : TranscriptError) : Option α → Except TranscriptError α
  | some a => .ok a
  | none => .error e

namespace ProvisionTranscriptInput

/-- The byte string fed to SHA-256. -/
def hashInput (input : ProvisionTranscriptInput) : Except TranscriptError Bytes := do
  let nonceBytes ← orError .nonceHex (hexDecode input.nonceHex)
  let clientPubKey ← orError .clientPubKey (base64Decode input.clientPubKeyB64)
  let serverPubKey ← orError .serverPubKey (base64Decode input.serverPubKeyB64)
  .ok (transcriptTag ++ nonceBytes ++ clientPubKey ++ input.deviceID ++ serverPubKey ++
    input.tunnelIP ++ input.tunnelIPv6 ++ input.endpoint ++ input.allowedIPs ++
    itoa input.persistentKeepalive)

/-- Nonce and keys are 32 bytes long. -/
def Sized (input : ProvisionTranscriptInput) : Prop :=
  (hexDecode input.nonceHex).map List.length = some 32 ∧
  (base64Decode input.clientPubKeyB64).map List.length = some 32 ∧
  (base64Decode input.serverPubKeyB64).map List.length = some 32

/-- The two inputs stand for the same configuration: the same nonce and keys, and
the same text in every other field. -/
def SameConfig (a b : ProvisionTranscriptInput) : Prop :=
  hexDecode a.nonceHex = hexDecode b.nonceHex ∧
  base64Decode a.clientPubKeyB64 = base64Decode b.clientPubKeyB64 ∧
  a.deviceID = b.deviceID ∧
  base64Decode a.serverPubKeyB64 = base64Decode b.serverPubKeyB64 ∧
  a.tunnelIP = b.tunnelIP ∧
  a.tunnelIPv6 = b.tunnelIPv6 ∧
  a.endpoint = b.endpoint ∧
  a.allowedIPs = b.allowedIPs ∧
  a.persistentKeepalive = b.persistentKeepalive

/-- The fields without a fixed length have pairwise the same length. -/
def SameLengths (a b : ProvisionTranscriptInput) : Prop :=
  a.deviceID.length = b.deviceID.length ∧
  a.tunnelIP.length = b.tunnelIP.length ∧
  a.tunnelIPv6.length = b.tunnelIPv6.length ∧
  a.endpoint.length = b.endpoint.length ∧
  a.allowedIPs.length = b.allowedIPs.length

instance (a : ProvisionTranscriptInput) : Decidable a.Sized :=
  inferInstanceAs (Decidable (_ ∧ _ ∧ _))

instance (a b : ProvisionTranscriptInput) : Decidable (a.SameConfig b) :=
  inferInstanceAs (Decidable (_ ∧ _ ∧ _ ∧ _ ∧ _ ∧ _ ∧ _ ∧ _ ∧ _))

instance (a b : ProvisionTranscriptInput) : Decidable (a.SameLengths b) :=
  inferInstanceAs (Decidable (_ ∧ _ ∧ _ ∧ _ ∧ _))

end ProvisionTranscriptInput

open ProvisionTranscriptInput

/-- The signed digest, for a given hash function. -/
def serverTranscriptV2 (sha256 : Bytes → Bytes) (input : ProvisionTranscriptInput) :
    Except TranscriptError Bytes :=
  input.hashInput.map sha256

theorem exists_of_sized {decoded : Option Bytes} (h : decoded.map List.length = some 32) :
    ∃ bs, decoded = some bs ∧ bs.length = 32 := by
  cases decoded with
  | none => simp at h
  | some bs => exact ⟨bs, rfl, by simpa using h⟩

/-- The parts of the hashed bytes of an input with 32-byte nonce and keys. -/
theorem hashInput_of_sized {input : ProvisionTranscriptInput} (hSized : input.Sized) :
    ∃ nonce client server, hexDecode input.nonceHex = some nonce ∧
      base64Decode input.clientPubKeyB64 = some client ∧
      base64Decode input.serverPubKeyB64 = some server ∧
      nonce.length = 32 ∧ client.length = 32 ∧ server.length = 32 ∧
      input.hashInput = .ok (transcriptTag ++ (nonce ++ (client ++ (input.deviceID ++
        (server ++ (input.tunnelIP ++ (input.tunnelIPv6 ++ (input.endpoint ++
        (input.allowedIPs ++ itoa input.persistentKeepalive))))))))) := by
  obtain ⟨nonce, hNonce, hNonceLength⟩ := exists_of_sized hSized.1
  obtain ⟨client, hClient, hClientLength⟩ := exists_of_sized hSized.2.1
  obtain ⟨server, hServer, hServerLength⟩ := exists_of_sized hSized.2.2
  refine ⟨nonce, client, server, hNonce, hClient, hServer, hNonceLength, hClientLength,
    hServerLength, ?_⟩
  simp only [hashInput, hNonce, hClient, hServer, List.append_assoc]
  rfl

/-- Inputs that hash the same bytes are the same configuration exactly if their
variable fields have the same lengths. -/
theorem equal_transcripts_same_config_iff (a b : ProvisionTranscriptInput) (hSizedA : a.Sized)
    (hSizedB : b.Sized) (hHash : a.hashInput = b.hashInput) :
    a.SameConfig b ↔ a.SameLengths b := by
  constructor
  · rintro ⟨-, -, hDevice, -, hIP, hIPv6, hEndpoint, hAllowed, -⟩
    exact ⟨by rw [hDevice], by rw [hIP], by rw [hIPv6], by rw [hEndpoint], by rw [hAllowed]⟩
  · rintro ⟨hDevice, hIP, hIPv6, hEndpoint, hAllowed⟩
    obtain ⟨na, ca, sa, hna, hca, hsa, lna, lca, lsa, hashA⟩ := hashInput_of_sized hSizedA
    obtain ⟨nb, cb, sb, hnb, hcb, hsb, lnb, lcb, lsb, hashB⟩ := hashInput_of_sized hSizedB
    have hAll := Except.ok.inj ((hashA.symm.trans hHash).trans hashB)
    obtain ⟨hNonce, hRest⟩ := List.append_inj (List.append_cancel_left hAll) (lna.trans lnb.symm)
    obtain ⟨hClient, hRest⟩ := List.append_inj hRest (lca.trans lcb.symm)
    obtain ⟨hDevice, hRest⟩ := List.append_inj hRest hDevice
    obtain ⟨hServer, hRest⟩ := List.append_inj hRest (lsa.trans lsb.symm)
    obtain ⟨hIP, hRest⟩ := List.append_inj hRest hIP
    obtain ⟨hIPv6, hRest⟩ := List.append_inj hRest hIPv6
    obtain ⟨hEndpoint, hRest⟩ := List.append_inj hRest hEndpoint
    obtain ⟨hAllowed, hKeepalive⟩ := List.append_inj hRest hAllowed
    exact ⟨by rw [hna, hnb, hNonce], by rw [hca, hcb, hClient], hDevice,
      by rw [hsa, hsb, hServer], hIP, hIPv6, hEndpoint, hAllowed, itoa_injective hKeepalive⟩

/-- A provision response as the agent signs it. -/
def sampleInput : ProvisionTranscriptInput where
  nonceHex := utf8 "00112233445566778899aabbccddeeff00112233445566778899aabbccddeeff"
  clientPubKeyB64 := utf8 "YWFhYWFhYWFhYWFhYWFhYWFhYWFhYWFhYWFhYWFhYWE="
  deviceID := utf8 "dev-42"
  serverPubKeyB64 := utf8 "YmJiYmJiYmJiYmJiYmJiYmJiYmJiYmJiYmJiYmJiYmI="
  tunnelIP := utf8 "100.64.0.2"
  tunnelIPv6 := []
  endpoint := utf8 "dev-42.atreotunnel.com:51820"
  allowedIPs := utf8 "100.64.0.0/24"
  persistentKeepalive := 25

/-- The nonce may be written in capitals without becoming another one. -/
theorem capital_nonce_same_config :
    sampleInput.SameConfig { sampleInput with
      nonceHex := utf8 "00112233445566778899AABBCCDDEEFF00112233445566778899AABBCCDDEEFF" } :=
  (equal_transcripts_same_config_iff _ _ (by decide +kernel) (by decide +kernel)
    (by decide +kernel)).mpr (by decide +kernel)

/-- Digits move between the route and the keepalive: the same bytes are signed for the
route `100.64.0.0/24` with keepalive 25 and for `100.64.0.0/2` with keepalive 425. -/
theorem route_digit_moves_into_keepalive :
    let other := { sampleInput with
      allowedIPs := utf8 "100.64.0.0/2", persistentKeepalive := 425 }
    sampleInput.Sized ∧ other.Sized ∧ sampleInput.hashInput.isOk ∧
      sampleInput.hashInput = other.hashInput ∧ ¬ sampleInput.SameConfig other := by
  decide +kernel

end Crypto
