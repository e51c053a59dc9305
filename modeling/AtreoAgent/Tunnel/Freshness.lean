import AtreoAgent.Tunnel.Cases
import AtreoAgent.Tunnel.NotifyAPIKey
import AtreoAgent.Tunnel.Sample

/-! The freshness window of commands. The distance between now and the time of a command is
computed in 64-bit arithmetic: at the end of the range of that time the subtraction or the
negation wraps around, and a time far away counts as fresh. -/
namespace Tunnel

open Codec Json Atreolink WireGuard Fallible

/-- A time in the range of `int64`. -/
def IsInt64 (n : Int) : Prop := -(2 ^ 63) ≤ n ∧ n < 2 ^ 63

instance (n : Int) : Decidable (IsInt64 n) := inferInstanceAs (Decidable (_ ∧ _))

/-- `wrap64` is a shift by a multiple of 2^64 into the range. -/
theorem wrap64_of_lt {n : Int} (hLow : -(2 ^ 63) ≤ n) (hHigh : n < 2 ^ 63) : wrap64 n = n := by
  rw [wrap64, Int.bmod_def]
  omega

theorem wrap64_of_le {n : Int} (hLow : 2 ^ 63 ≤ n) (hHigh : n < 2 ^ 64) :
    wrap64 n = n - 2 ^ 64 := by
  rw [wrap64, Int.bmod_def]
  omega

/-- The exact distance is within the window. -/
def InWindow (now : Time) (ts : Int) : Prop := (unix now - ts).natAbs ≤ commandTimestampSkew

instance (now : Time) (ts : Int) : Decidable (InWindow now ts) :=
  inferInstanceAs (Decidable ((_ : Int) ≤ _))

/-- The subtraction does not come round to the least value or to the window. -/
def DoesNotWrap (now : Time) (ts : Int) : Prop :=
  unix now - ts ≠ 2 ^ 63 ∧ unix now - ts < 2 ^ 64 - commandTimestampSkew

instance (now : Time) (ts : Int) : Decidable (DoesNotWrap now ts) :=
  inferInstanceAs (Decidable (_ ∧ _))

theorem InWindow.doesNotWrap {now : Time} {ts : Int} (h : InWindow now ts) : DoesNotWrap now ts := by
  rw [InWindow, commandTimestampSkew] at h
  rw [DoesNotWrap, commandTimestampSkew]
  omega

/-- Where the computed distance passes the test. -/
theorem timestampSkew_le_iff {now : Time} {ts : Int} (hNow : 0 ≤ unix now)
    (hBound : IsInt64 (unix now)) (hTime : IsInt64 ts) :
    timestampSkew now ts ≤ commandTimestampSkew ↔ InWindow now ts ∨ ¬ DoesNotWrap now ts := by
  obtain ⟨_, hNowHigh⟩ := hBound
  obtain ⟨hLow, hHigh⟩ := hTime
  rw [InWindow, DoesNotWrap, commandTimestampSkew, timestampSkew]
  rcases Int.lt_or_le (unix now - ts) (2 ^ 63) with hSmall | hLarge
  · -- The subtraction does not wrap, and neither does the negation.
    rw [wrap64_of_lt (by omega) hSmall]
    split
    next hNeg =>
      rw [wrap64_of_lt (by omega) (by omega)]
      omega
    next hPos => omega
  · rw [wrap64_of_le hLarge (by omega)]
    rw [if_pos (by omega)]
    rcases Int.lt_or_le (2 ^ 63) (unix now - ts) with hBeyond | hExact
    · rw [wrap64_of_lt (by omega) (by omega)]
      omega
    · -- The negation of the least value is that value.
      rw [wrap64_of_le (by omega) (by omega)]
      omega

/-- The outcome of a check is not a stale time. -/
def NotStale (outcome : Except VerifyError Unit) : Prop :=
  ∀ skew, outcome ≠ .error (.staleTimestamp skew)

section Signers

variable (env : Env) (store : Acl.Store) (msg : TunnelMessage)

theorem notStale_checkSignature (pub : PublicKey) : NotStale (checkSignature env msg pub) := by
  intro skew
  unfold checkSignature
  split
  · simp
  · split
    · simp
    · split <;> simp

theorem notStale_verifyEnvelope (lookup : String → Option String) :
    NotStale (verifyEnvelope env msg lookup) := by
  intro skew
  unfold verifyEnvelope
  split
  · simp
  · split
    · simp
    · split
      · simp
      · split
        · simp
        · split
          · exact notStale_checkSignature env msg _ skew
          · simp

theorem notStale_requireMember (memberID : String) :
    NotStale (requireMember env store msg memberID) := by
  intro skew
  unfold requireMember
  split
  · simp
  · exact notStale_verifyEnvelope env msg _ skew

theorem notStale_requireAdmin : NotStale (requireAdmin env store msg) := by
  intro skew
  unfold requireAdmin
  split
  · simp
  · split
    · simp
    · split
      · exact notStale_verifyEnvelope env msg _ skew
      · simp

/-- The check of who signed never reports a stale time. -/
theorem notStale_verify (auth : CommandAuth) : NotStale (auth.verify env store msg) := by
  cases auth with
  | admin => exact notStale_requireAdmin env store msg
  | member memberID => exact notStale_requireMember env store msg memberID
  | memberOrAdmin memberID =>
      rw [CommandAuth.verify]
      split
      · exact notStale_requireMember env store msg memberID
      · exact notStale_requireAdmin env store msg
  | attested pubkey =>
      rw [CommandAuth.verify, verifySignatureAgainst]
      split
      · intro skew
        simp
      · exact notStale_checkSignature env msg pubkey

/-- A command with the right intent gets past the freshness test when the computed distance
is at most 120. -/
theorem notStale_verifyCommand_iff (now : Time) (auth : CommandAuth)
    {fields : CommandEnvelopeFields} {intent : String} (hIntent : fields.intent = intent) :
    NotStale (verifyCommand env store now msg auth fields intent) ↔
      timestampSkew now fields.timestamp ≤ commandTimestampSkew := by
  rw [verifyCommand, if_neg (not_not_intro hIntent)]
  constructor
  · intro hPast
    by_contra hStale
    rw [if_pos (not_le.mp hStale)] at hPast
    exact hPast _ rfl
  · intro hFresh
    rw [if_neg (not_lt.mpr hFresh)]
    exact notStale_verify env store msg auth

end Signers

/-- The fields of a fresh command that its handler has accepted. -/
inductive CommandAccepted (env : Env) (now : Time) (agent : Agent)
    (notifyServer : Option NotifyServer) (msg : TunnelMessage) : CommandEnvelopeFields → Prop where
  | challenge (p : ChallengePayload) (random : Option String) (nonce : String)
      (hPayload : ChallengePayload.unmarshal msg.payload = some p)
      (hOk : (agent.handleChallenge env now random msg).2 = .ok nonce) :
      CommandAccepted env now agent notifyServer msg p.toCommandEnvelopeFields
  | provision (p : ProvisionPayload) (exec : List String → Bool)
      (response : ProvisionResponsePayload)
      (hPayload : ProvisionPayload.unmarshal msg.payload = some p)
      (hOk : (agent.handleProvision env now exec msg).2 = .ok response) :
      CommandAccepted env now agent notifyServer msg p.toCommandEnvelopeFields
  | unpaired (p : DeviceUnpairedPayload)
      (hPayload : DeviceUnpairedPayload.unmarshal msg.payload = some p)
      (hOk : agent.acceptsUnpaired env now msg = true) :
      CommandAccepted env now agent notifyServer msg p.toCommandEnvelopeFields
  | notifyAPIKey (p : NotifyAPIKeyPayload) (reply : TunnelMessage)
      (hPayload : NotifyAPIKeyPayload.unmarshal msg.payload = some p)
      (hOk : handleNotifyAPIKey env agent.store now notifyServer msg = .ok reply) :
      CommandAccepted env now agent notifyServer msg p.toCommandEnvelopeFields
  | notifyAPIKeyRotate (p : NotifyAPIKeyPayload) (generated : Option String)
      (result : NotifyServer × TunnelMessage)
      (hPayload : NotifyAPIKeyPayload.unmarshal msg.payload = some p)
      (hOk : handleNotifyAPIKeyRotate env agent.store now generated notifyServer msg = .ok result) :
      CommandAccepted env now agent notifyServer msg p.toCommandEnvelopeFields

section Commands

variable {env : Env} {now : Time} {agent : Agent} {notifyServer : Option NotifyServer}
  {msg : TunnelMessage} {fields : CommandEnvelopeFields}

theorem checkNotifyCommand_fresh {start : String} {p : NotifyAPIKeyPayload} {server : NotifyServer}
    (hPayload : NotifyAPIKeyPayload.unmarshal msg.payload = some p)
    (h : checkNotifyCommand start env agent.store now notifyServer msg = .ok server) :
    timestampSkew now p.timestamp ≤ commandTimestampSkew := by
  obtain ⟨_, _, h⟩ := bind_eq_ok.mp h
  obtain ⟨p', hRead, h⟩ := bind_eq_ok.mp h
  obtain ⟨_, _, h⟩ := bind_eq_ok.mp h
  obtain ⟨_, hCommand, _⟩ := bind_eq_ok.mp h
  cases hPayload.symm.trans (require_eq_ok.mp hRead)
  exact (verifyCommand_eq_ok (mapError_eq_ok.mp hCommand)).2.1

/-- Every accepted command has passed the freshness test. -/
theorem CommandAccepted.fresh (h : CommandAccepted env now agent notifyServer msg fields) :
    timestampSkew now fields.timestamp ≤ commandTimestampSkew := by
  cases h with
  | challenge p random nonce hPayload hOk =>
      unfold Agent.handleChallenge at hOk
      rw [hPayload] at hOk
      dsimp only at hOk
      split at hOk
      · cases hOk
      next hVerify => exact (verifyCommand_eq_ok hVerify).2.1
  | provision p exec response hPayload hOk =>
      obtain ⟨req, _, _, _, _, hCheck, _⟩ := handleProvision_eq_ok hOk
      obtain ⟨p', entry, hRead, _, hNonce, _⟩ := checkProvision_eq_ok hCheck
      cases hPayload.symm.trans hRead
      obtain ⟨_, _, hNonce⟩ := bind_eq_ok.mp hNonce
      obtain ⟨_, _, hNonce⟩ := bind_eq_ok.mp hNonce
      obtain ⟨_, hVerify, _⟩ := bind_eq_ok.mp hNonce
      exact (verifyCommand_eq_ok (mapError_eq_ok.mp hVerify)).2.1
  | unpaired p hPayload hOk =>
      unfold Agent.acceptsUnpaired at hOk
      rw [hPayload] at hOk
      dsimp only at hOk
      rw [Bool.and_eq_true] at hOk
      cases hVerify : verifyCommand env agent.store now msg .admin p.toCommandEnvelopeFields
          ("unpair-device-" ++ env.deviceID ++ "-" ++ toString p.timestamp) with
      | error e =>
          rw [hVerify] at hOk
          cases hOk.2
      | ok u => exact (verifyCommand_eq_ok hVerify).2.1
  | notifyAPIKey p reply hPayload hOk =>
      obtain ⟨server, hCheck, _⟩ := bind_eq_ok.mp hOk
      exact checkNotifyCommand_fresh hPayload hCheck
  | notifyAPIKeyRotate p generated result hPayload hOk =>
      obtain ⟨server, hCheck, _⟩ := bind_eq_ok.mp hOk
      exact checkNotifyCommand_fresh hPayload hCheck

end Commands

/-- A command gets past the freshness test just if its time is in the window, as long as the
distance does not wrap; then no command outside the window is accepted. -/
theorem freshness_exact_iff (env : Env) (now : Time) (agent : Agent)
    (notifyServer : Option NotifyServer) (msg : TunnelMessage) (auth : CommandAuth)
    (fields : CommandEnvelopeFields) (intent : String) (hIntent : fields.intent = intent)
    (hNow : 0 ≤ unix now) (hBound : IsInt64 (unix now)) (hTime : IsInt64 fields.timestamp) :
    ((NotStale (verifyCommand env agent.store now msg auth fields intent) ↔
      InWindow now fields.timestamp) ↔ DoesNotWrap now fields.timestamp) ∧
    (DoesNotWrap now fields.timestamp →
      CommandAccepted env now agent notifyServer msg fields → InWindow now fields.timestamp) := by
  have hPast := timestampSkew_le_iff hNow hBound hTime
  constructor
  · rw [notStale_verifyCommand_iff env agent.store msg now auth hIntent, hPast]
    constructor
    · intro hExact
      by_contra hWraps
      exact hWraps (hExact.mp (Or.inr hWraps)).doesNotWrap
    · intro hNoWrap
      exact or_iff_left (not_not_intro hNoWrap)
  · intro hNoWrap hAccepted
    exact (hPast.mp hAccepted.fresh).resolve_right (not_not_intro hNoWrap)

/-- A challenge of the owner with the given time. -/
def timedChallenge (ts : Int) : TunnelMessage :=
  sampleChallenge (sampleKey 1) "a" (sampleWGKey 3) ts

/-- A challenge 120 seconds before now is in the window and accepted. -/
theorem edge_of_window_accepted :
    (ownerAgent.handleChallenge (sampleEnv []) 0 (some "n") (timedChallenge (-120))).2.isOk = true ∧
      InWindow 0 (-120) := by
  have hAnswer : (ownerAgent.handleChallenge (sampleEnv []) 0 (some "n")
      (timedChallenge (-120))).2 = .ok "n" := by decide +kernel
  have hRead : (ChallengePayload.unmarshal (timedChallenge (-120)).payload).map (·.timestamp) =
      some (-120) := by decide +kernel
  obtain ⟨p, hPayload, hTime⟩ := Option.map_eq_some_iff.mp hRead
  refine ⟨by rw [hAnswer]; rfl, ?_⟩
  have hExact := (freshness_exact_iff (sampleEnv []) 0 ownerAgent none (timedChallenge (-120)) .admin
    p.toCommandEnvelopeFields _ rfl (by decide) (by decide) (by rw [hTime]; decide)).2 ?_
    (.challenge p (some "n") "n" hPayload hAnswer)
  · rwa [hTime] at hExact
  · rw [hTime]
    decide

/-- A challenge 2^63 seconds before now is accepted. -/
theorem wrapped_challenge_accepted :
    (ownerAgent.handleChallenge (sampleEnv []) 0 (some "n") (timedChallenge (-(2 ^ 63)))).2 =
      .ok "n" ∧ ¬ InWindow 0 (-(2 ^ 63)) := by
  decide +kernel

end Tunnel
