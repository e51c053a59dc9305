import AtreoAgent.Json.Determined
import AtreoAgent.Tunnel.CustomDomain
import AtreoAgent.Tunnel.NotifyAPIKey
import AtreoAgent.Tunnel.Rows
import AtreoAgent.Tunnel.Sample

/-! Commands whose intent names the device. A signed payload is accepted by the agent of
one device only, and as one command only, whatever is sent around it: the intent starts
with the name of the command, and what follows the device id is fixed by the payload. -/
namespace Tunnel

open Codec Json Atreolink Fallible

inductive Command where
  | appUpserted | memberStatus | memberPermissions | clientRegister | customDomainSet
  | deviceUnpaired | notifyAPIKey | notifyAPIKeyRotate
  deriving DecidableEq

/-- The agent with this environment accepts the payload as the command, with some
unsigned fields around it and in some state. -/
inductive Accepts (lower : Char → Char) (env : Env) (payload : Bytes) : Command → Prop where
  | appUpserted (store : Acl.Store) (ownerPub : PublicKey) (e : DSEnvelope) (app : App)
      (hPayload : e.payload = payload) (h : verifyApp env store ownerPub e = .ok app) :
      Accepts lower env payload .appUpserted
  | memberStatus (store : Acl.Store) (ownerPub : PublicKey) (dm : DSMember) (e : DSEnvelope)
      (status : String) (hEnvelope : dm.statusEnvelope = some e) (hPayload : e.payload = payload)
      (h : verifyStatus env store ownerPub dm = .ok status) :
      Accepts lower env payload .memberStatus
  | memberPermissions (store : Acl.Store) (ownerPub : PublicKey) (dm : DSMember) (e : DSEnvelope)
      (permitted : Option (List String)) (hEnvelope : dm.permissionsEnvelope = some e)
      (hPayload : e.payload = payload)
      (h : verifyPermissions env store ownerPub dm = .ok permitted) :
      Accepts lower env payload .memberPermissions
  | clientRegister (store : Acl.Store) (memberPub : PublicKey) (memberID : String) (dc : DSClient)
      (e : DSEnvelope) (vc : VerifiedClient) (hPayload : e.payload = payload)
      (h : verifyClient env store memberPub memberID dc e = .ok vc) :
      Accepts lower env payload .clientRegister
  | customDomainSet (store : Acl.Store) (ownerPub : PublicKey) (e : DSEnvelope) (zone : String)
      (hPayload : e.payload = payload)
      (h : verifyCustomDomain lower env store ownerPub e = some zone) :
      Accepts lower env payload .customDomainSet
  | deviceUnpaired (now : Time) (agent : Agent) (msg : TunnelMessage)
      (hPayload : msg.payload = payload) (h : agent.acceptsUnpaired env now msg = true) :
      Accepts lower env payload .deviceUnpaired
  | notifyAPIKey (store : Acl.Store) (now : Time) (server : Option NotifyServer)
      (msg answer : TunnelMessage) (hPayload : msg.payload = payload)
      (h : handleNotifyAPIKey env store now server msg = .ok answer) :
      Accepts lower env payload .notifyAPIKey
  | notifyAPIKeyRotate (store : Acl.Store) (now : Time) (generated : Option String)
      (server : Option NotifyServer) (msg : TunnelMessage) (answer : NotifyServer × TunnelMessage)
      (hPayload : msg.payload = payload)
      (h : handleNotifyAPIKeyRotate env store now generated server msg = .ok answer) :
      Accepts lower env payload .notifyAPIKeyRotate

namespace Command

/-- What the intent has before the device id. -/
def tag : Command → String
  | appUpserted => "app:upserted-"
  | memberStatus => "member:status-"
  | memberPermissions => "member:permissions-"
  | clientRegister => "wg:client-register-"
  | customDomainSet => "custom-domain-set-"
  | deviceUnpaired => "unpair-device-"
  | notifyAPIKey => "notify:apikey-"
  | notifyAPIKeyRotate => "notify:apikey:rotate-"

/-- The fields the payload is decoded into. -/
def schema : Command → Schema
  | appUpserted => PayloadType.appUpserted.schema
  | memberStatus => PayloadType.memberStatus.schema
  | memberPermissions => PayloadType.memberPermissions.schema
  | clientRegister => PayloadType.clientRegister.schema
  | customDomainSet => PayloadType.customDomainSet.schema
  | deviceUnpaired | notifyAPIKey | notifyAPIKeyRotate => notifyAPIKeySchema

/-- What the intent has after the device id, from the decoded payload. -/
def details (lower : Char → Char) (es : List Json.Event) : Command → String
  | appUpserted => "-" ++ textAt es ["app", "id"]
  | memberStatus => "-" ++ textAt es ["memberId"] ++ "-" ++ textAt es ["status"] ++ "-" ++
      toString (intAt es ["ts"])
  | memberPermissions => "-" ++ textAt es ["memberId"] ++ "-" ++ toString (intAt es ["ts"])
  | clientRegister => "-" ++ textAt es ["memberId"] ++ "-" ++ textAt es ["publicKey"] ++ "-" ++
      toString (intAt es ["ts"])
  | customDomainSet => "-" ++ normaliseZone lower (textAt es ["parentZone"])
  | deviceUnpaired | notifyAPIKey | notifyAPIKeyRotate => "-" ++ toString (intAt es ["ts"])

def all : List Command :=
  [appUpserted, memberStatus, memberPermissions, clientRegister, customDomainSet, deviceUnpaired,
    notifyAPIKey, notifyAPIKeyRotate]

theorem mem_all (c : Command) : c ∈ all := by
  cases c <;> decide

theorem separates_tag : Separates fun c : Command => chars c.tag := by
  have hAll : ∀ a ∈ all, ∀ b ∈ all, chars a.tag <+: chars b.tag → a = b := by decide +kernel
  exact fun a b => hAll a a.mem_all b b.mem_all

theorem distinct_schema (c : Command) : DistinctNames c.schema := by
  cases c <;> decide +kernel

theorem intent_mem_schema (c : Command) : ("intent", Shape.leaf .text) ∈ c.schema := by
  cases c <;> exact List.mem_cons_self

end Command

theorem verifyAuthorization_eq_ok {env : Env} {store : Acl.Store} {msg : TunnelMessage}
    {auth : CommandAuth} {fields : CommandEnvelopeFields} {intent : String}
    (h : verifyAuthorization env store msg auth fields intent = .ok ()) :
    fields.intent = intent := by
  unfold verifyAuthorization at h
  split at h
  · cases h
  next hIntent => exact not_not.mp hIntent

section Intents

variable (lower : Char → Char) (env : Env) (es : List Json.Event)

theorem appIntent_read : appIntent env (PayloadType.appUpserted.read es) =
    Command.appUpserted.tag ++ env.deviceID ++ Command.appUpserted.details lower es := by
  unfold appIntent Command.tag Command.details
  simp only [← String.append_assoc]
  rfl

theorem statusIntent_read : statusIntent env (PayloadType.memberStatus.read es) =
    Command.memberStatus.tag ++ env.deviceID ++ Command.memberStatus.details lower es := by
  unfold statusIntent Command.tag Command.details
  simp only [← String.append_assoc]
  rfl

theorem permissionsIntent_read : permissionsIntent env (PayloadType.memberPermissions.read es) =
    Command.memberPermissions.tag ++ env.deviceID ++
      Command.memberPermissions.details lower es := by
  unfold permissionsIntent Command.tag Command.details
  simp only [← String.append_assoc]
  rfl

theorem registerIntent_read : registerIntent env (PayloadType.clientRegister.read es)
      (PayloadType.clientRegister.read es).publicKey =
    Command.clientRegister.tag ++ env.deviceID ++ Command.clientRegister.details lower es := by
  unfold registerIntent Command.tag Command.details
  simp only [← String.append_assoc]
  rfl

theorem customDomainIntent_read : customDomainIntent env
      (normaliseZone lower (PayloadType.customDomainSet.read es).parentZone) =
    Command.customDomainSet.tag ++ env.deviceID ++ Command.customDomainSet.details lower es := by
  unfold customDomainIntent Command.tag Command.details
  simp only [← String.append_assoc]
  rfl

end Intents

/-- The payload carries the intent of the command for this device. -/
def Carries (lower : Char → Char) (env : Env) (payload : Bytes) (c : Command) : Prop :=
  ∃ es, Json.unmarshal c.schema payload = some es ∧
    textAt es ["intent"] = c.tag ++ env.deviceID ++ c.details lower es

section Carries

variable {lower : Char → Char} {env : Env} {store : Acl.Store} {payload : Bytes}

variable {e : DSEnvelope} {ownerPub : PublicKey}

theorem carries_of_verifyApp {app : App} (h : verifyApp env store ownerPub e = .ok app) :
    Carries lower env e.payload .appUpserted := by
  obtain ⟨p, hDecode, h⟩ := bind_eq_ok.mp h
  obtain ⟨_, hVerify, _⟩ := bind_eq_ok.mp h
  obtain ⟨es, hEvents, rfl⟩ := Option.map_eq_some_iff.mp (require_eq_ok.mp hDecode)
  refine ⟨es, hEvents, ?_⟩
  rw [← appIntent_read]
  exact verifyAuthorization_eq_ok (mapError_eq_ok.mp hVerify)

theorem carries_of_verifyStatus {dm : DSMember} {status : String}
    (hEnvelope : dm.statusEnvelope = some e) (h : verifyStatus env store ownerPub dm = .ok status) :
    Carries lower env e.payload .memberStatus := by
  rcases verifyStatus_eq_ok h with ⟨hNone, _⟩ | ⟨e', p, hSome, hDecode, _, _, hVerify, _⟩
  · rw [hNone] at hEnvelope
    cases hEnvelope
  · obtain rfl := Option.some.inj (hEnvelope.symm.trans hSome)
    obtain ⟨es, hEvents, rfl⟩ := Option.map_eq_some_iff.mp hDecode
    refine ⟨es, hEvents, ?_⟩
    rw [← statusIntent_read]
    exact verifyAuthorization_eq_ok hVerify

theorem carries_of_verifyPermissions {dm : DSMember} {permitted : Option (List String)}
    (hEnvelope : dm.permissionsEnvelope = some e)
    (h : verifyPermissions env store ownerPub dm = .ok permitted) :
    Carries lower env e.payload .memberPermissions := by
  rcases verifyPermissions_eq_ok h with ⟨hNone, _⟩ | ⟨e', p, hSome, hDecode, _, hVerify, _⟩
  · rw [hNone] at hEnvelope
    cases hEnvelope
  · obtain rfl := Option.some.inj (hEnvelope.symm.trans hSome)
    obtain ⟨es, hEvents, rfl⟩ := Option.map_eq_some_iff.mp hDecode
    refine ⟨es, hEvents, ?_⟩
    rw [← permissionsIntent_read]
    exact verifyAuthorization_eq_ok hVerify

/-- The intent names the key beside the envelope, which must be the key inside it. -/
theorem carries_of_verifyClient {memberPub : PublicKey} {memberID : String} {dc : DSClient}
    {vc : VerifiedClient} (h : verifyClient env store memberPub memberID dc e = .ok vc) :
    Carries lower env e.payload .clientRegister := by
  obtain ⟨p, hDecode, h⟩ := bind_eq_ok.mp h
  obtain ⟨_, hVerify, h⟩ := bind_eq_ok.mp h
  obtain ⟨_, hMatches, _⟩ := bind_eq_ok.mp h
  have hKey := (of_decide_eq_true (ensure_eq_ok.mp hMatches)).2
  obtain ⟨es, hEvents, rfl⟩ := Option.map_eq_some_iff.mp (require_eq_ok.mp hDecode)
  refine ⟨es, hEvents, ?_⟩
  rw [← registerIntent_read, hKey]
  exact verifyAuthorization_eq_ok (mapError_eq_ok.mp hVerify)

theorem carries_of_verifyCustomDomain {zone : String}
    (h : verifyCustomDomain lower env store ownerPub e = some zone) :
    Carries lower env e.payload .customDomainSet := by
  obtain ⟨p, hDecode, _, _, hVerify⟩ := verifyCustomDomain_eq_some h
  obtain ⟨es, hEvents, rfl⟩ := Option.map_eq_some_iff.mp hDecode
  refine ⟨es, hEvents, ?_⟩
  rw [← customDomainIntent_read]
  exact verifyAuthorization_eq_ok hVerify

/-- The commands without details beyond the time share their payload. -/
theorem carries_of_fresh (c : Command) {es : List Json.Event}
    (hSchema : c.schema = notifyAPIKeySchema)
    (hDetails : c.details lower es = "-" ++ toString (intAt es ["ts"]))
    (hEvents : Json.unmarshal notifyAPIKeySchema payload = some es)
    (hIntent : textAt es ["intent"] =
      c.tag ++ env.deviceID ++ "-" ++ toString (intAt es ["ts"])) :
    Carries lower env payload c := by
  refine ⟨es, by rw [hSchema, hEvents], ?_⟩
  rw [hIntent, hDetails, ← String.append_assoc]

theorem carries_of_acceptsUnpaired {agent : Agent} {now : Time} {msg : TunnelMessage}
    (h : agent.acceptsUnpaired env now msg = true) :
    Carries lower env msg.payload .deviceUnpaired := by
  unfold Agent.acceptsUnpaired at h
  split at h
  · cases h
  next p hDecode =>
    have hOk := (Bool.and_eq_true_iff.mp h).2
    cases hVerify : verifyCommand env agent.store now msg .admin p.toCommandEnvelopeFields
        ("unpair-device-" ++ env.deviceID ++ "-" ++ toString p.timestamp) with
    | error err =>
        rw [hVerify] at hOk
        cases hOk
    | ok _ =>
        obtain ⟨es, hEvents, rfl⟩ := Option.map_eq_some_iff.mp hDecode
        exact carries_of_fresh .deviceUnpaired rfl rfl hEvents (verifyCommand_eq_ok hVerify).1

end Carries

theorem Accepts.carries {lower : Char → Char} {env : Env} {payload : Bytes} {c : Command}
    (h : Accepts lower env payload c) : Carries lower env payload c := by
  cases h with
  | appUpserted store ownerPub e app hPayload h => exact hPayload ▸ carries_of_verifyApp h
  | memberStatus store ownerPub dm e status hEnvelope hPayload h =>
      exact hPayload ▸ carries_of_verifyStatus hEnvelope h
  | memberPermissions store ownerPub dm e permitted hEnvelope hPayload h =>
      exact hPayload ▸ carries_of_verifyPermissions hEnvelope h
  | clientRegister store memberPub memberID dc e vc hPayload h =>
      exact hPayload ▸ carries_of_verifyClient h
  | customDomainSet store ownerPub e zone hPayload h =>
      exact hPayload ▸ carries_of_verifyCustomDomain h
  | deviceUnpaired now agent msg hPayload h => exact hPayload ▸ carries_of_acceptsUnpaired h
  | notifyAPIKey store now server msg answer hPayload h =>
      subst hPayload
      obtain ⟨_, hCheck, _⟩ := bind_eq_ok.mp h
      obtain ⟨es, hEvents, hIntent⟩ := checkNotifyCommand_eq_ok hCheck
      exact carries_of_fresh .notifyAPIKey rfl rfl hEvents hIntent
  | notifyAPIKeyRotate store now generated server msg answer hPayload h =>
      subst hPayload
      obtain ⟨_, hCheck, _⟩ := bind_eq_ok.mp h
      obtain ⟨es, hEvents, hIntent⟩ := checkNotifyCommand_eq_ok hCheck
      exact carries_of_fresh .notifyAPIKeyRotate rfl rfl hEvents hIntent

/-- Two agents that accept the same signed payload are agents of the same device and
take it for the same command. -/
theorem signed_payload_not_replayed {lower : Char → Char} {env env' : Env} {payload : Bytes}
    {c c' : Command} (h : Accepts lower env payload c) (h' : Accepts lower env' payload c') :
    c = c' ∧ env.deviceID = env'.deviceID := by
  obtain ⟨es, hEvents, hIntent⟩ := h.carries
  obtain ⟨es', hEvents', hIntent'⟩ := h'.carries
  -- The intent is read alike by both structs.
  have hStores := storesAt_unmarshal c.distinct_schema c'.distinct_schema c.intent_mem_schema
    c'.intent_mem_schema hEvents hEvents'
  have hTexts : c.tag ++ env.deviceID ++ c.details lower es =
      c'.tag ++ env'.deviceID ++ c'.details lower es' := by
    rw [← hIntent, ← hIntent', textAt, textAt, hStores]
  have hChars : chars c.tag ++ (chars env.deviceID ++ chars (c.details lower es)) =
      chars c'.tag ++ (chars env'.deviceID ++ chars (c'.details lower es')) := by
    simpa [String.toList_append] using congrArg String.toList hTexts
  obtain ⟨rfl, hRest⟩ := Command.separates_tag.append_inj hChars
  refine ⟨rfl, ?_⟩
  -- The same struct leaves the same text after the device id.
  obtain rfl := Option.some.inj (hEvents.symm.trans hEvents')
  have hDevice := List.append_cancel_right hRest
  rw [chars_eq, chars_eq] at hDevice
  exact String.toList_injective hDevice

/-- A member the owner suspends. -/
def memberSuspended : DSMember :=
  sampleMember (sampleKey 2) [] (some (sampleStatus (sampleKey 1) "b" "suspended"))

theorem suspension_not_replayed :
    ∃ payload, Accepts id (sampleEnv []) payload .memberStatus ∧
      (Command.memberStatus = .memberStatus ∧ (sampleEnv []).deviceID = (sampleEnv []).deviceID) ∧
      ∀ env c, env.deviceID = "e" → ¬ Accepts id env payload c := by
  have hVerify : verifyStatus (sampleEnv []) Acl.Store.new (sampleKey 1) memberSuspended =
      .ok "suspended" := by
    decide +kernel
  have hAccepts : Accepts id (sampleEnv []) (sampleStatus (sampleKey 1) "b" "suspended").payload
      .memberStatus :=
    .memberStatus _ _ _ _ _ rfl rfl hVerify
  refine ⟨_, hAccepts, signed_payload_not_replayed hAccepts hAccepts, ?_⟩
  intro env c hDevice h
  have hSame := (signed_payload_not_replayed hAccepts h).2
  rw [hDevice] at hSame
  exact absurd hSame (by decide)

end Tunnel
