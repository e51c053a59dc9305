import AtreoAgent.Codec.Labels
import AtreoAgent.Codec.Text

/-! The DNS provider of an issuance (`atreoLinkDNSProvider` in `issuer.go`). A record is written
or removed by atreoLINK at the provider's request. The provider refuses a name before anything is
sent, unless the name belongs to its suffix or to its device. -/
namespace Certs

open Codec

/-- `dns01.ChallengeInfo`: the name of the record once aliases are followed, and its text. -/
structure ChallengeInfo where
  effectiveFQDN : String
  value : String
  deriving DecidableEq, Repr

/-- The two requests of the client, `dns:present` and `dns:cleanup`. -/
inductive RecordOperation where
  | dnsPresent
  | dnsCleanup
  deriving DecidableEq, Repr

structure RecordRequest where
  operation : RecordOperation
  fqdn : String
  value : String
  deriving DecidableEq, Repr

inductive ProviderError (ε : Type) where
  /-- `agent refusing FQDN scope mismatch: got … (suffix …, deviceID …)` -/
  | scopeMismatch (fqdn suffix deviceID : String)
  /-- The error of the request itself. -/
  | request (e : ε)
  deriving DecidableEq, Repr

structure AtreoLinkDNSProvider where
  currentSuffix : String
  deviceID : String
  deriving DecidableEq, Repr

namespace AtreoLinkDNSProvider

def isAllowedFQDN (p : AtreoLinkDNSProvider) (fqdn : String) : Bool :=
  if fqdn = "_acme-challenge." ++ p.currentSuffix then true
  else if p.deviceID = "" then false
  else contains ("." ++ fqdn ++ ".") ("." ++ p.deviceID ++ ".")

variable {ε : Type}

/-- What `Present` and `CleanUp` have in common: the requests sent so far come with the request
that is sent, if any, and `reply` is what becomes of it. -/
def pass (operation : RecordOperation) (p : AtreoLinkDNSProvider) (info : ChallengeInfo)
    (reply : Except ε Unit) (sent : List RecordRequest) :
    List RecordRequest × Except (ProviderError ε) Unit :=
  let fqdn := trimEnd "." info.effectiveFQDN
  if !p.isAllowedFQDN fqdn then
    (sent, .error (.scopeMismatch fqdn p.currentSuffix p.deviceID))
  else (sent ++ [⟨operation, fqdn, info.value⟩], reply.mapError .request)

def present (p : AtreoLinkDNSProvider) (info : ChallengeInfo) (reply : Except ε Unit)
    (sent : List RecordRequest) : List RecordRequest × Except (ProviderError ε) Unit :=
  pass .dnsPresent p info reply sent

def cleanUp (p : AtreoLinkDNSProvider) (info : ChallengeInfo) (reply : Except ε Unit)
    (sent : List RecordRequest) : List RecordRequest × Except (ProviderError ε) Unit :=
  pass .dnsCleanup p info reply sent

/-- One call of the ACME client, and what atreoLINK answers if it is asked. -/
structure Call (ε : Type) where
  operation : RecordOperation
  info : ChallengeInfo
  reply : Except ε Unit

def Call.request (c : Call ε) : RecordRequest :=
  ⟨c.operation, trimEnd "." c.info.effectiveFQDN, c.info.value⟩

def step (p : AtreoLinkDNSProvider) (sent : List RecordRequest) (c : Call ε) :
    List RecordRequest :=
  match c.operation with
  | .dnsPresent => (p.present c.info c.reply sent).1
  | .dnsCleanup => (p.cleanUp c.info c.reply sent).1

/-- All that reaches atreoLINK in an issuance, whatever the ACME client asks for. -/
def run (p : AtreoLinkDNSProvider) (sent : List RecordRequest) (calls : List (Call ε)) :
    List RecordRequest :=
  calls.foldl p.step sent

/-- A name in the scope of the provider. -/
def InScope (p : AtreoLinkDNSProvider) (fqdn : String) : Prop :=
  fqdn = "_acme-challenge" ++ "." ++ p.currentSuffix ∨ p.deviceID ∈ labels fqdn

instance (p : AtreoLinkDNSProvider) (fqdn : String) : Decidable (p.InScope fqdn) :=
  inferInstanceAs (Decidable (_ ∨ _))

section Scope

variable {p : AtreoLinkDNSProvider} (hDevice : p.deviceID ≠ "") (hDot : '.' ∉ chars p.deviceID)
include hDevice hDot

theorem isAllowedFQDN_iff (fqdn : String) : p.isAllowedFQDN fqdn = true ↔ p.InScope fqdn := by
  have hName : "_acme-challenge" ++ "." = "_acme-challenge." := by decide
  rw [isAllowedFQDN, InScope, hName]
  by_cases hSuffix : fqdn = "_acme-challenge." ++ p.currentSuffix
  · rw [if_pos hSuffix]
    exact ⟨fun _ => Or.inl hSuffix, fun _ => rfl⟩
  · rw [if_neg hSuffix, if_neg hDevice, contains_dots_iff hDevice hDot]
    exact ⟨Or.inr, fun h => h.resolve_left hSuffix⟩

/-- A name in scope is passed on, and any other is refused with nothing sent. -/
theorem pass_eq (operation : RecordOperation) (info : ChallengeInfo) (reply : Except ε Unit)
    (sent : List RecordRequest) :
    pass operation p info reply sent =
      if p.InScope (trimEnd "." info.effectiveFQDN) then
        (sent ++ [⟨operation, trimEnd "." info.effectiveFQDN, info.value⟩],
          reply.mapError .request)
      else (sent, .error (.scopeMismatch (trimEnd "." info.effectiveFQDN) p.currentSuffix
        p.deviceID)) := by
  have hAllowed := isAllowedFQDN_iff hDevice hDot (trimEnd "." info.effectiveFQDN)
  rw [pass]
  by_cases hScope : p.InScope (trimEnd "." info.effectiveFQDN)
  · rw [if_pos hScope, hAllowed.mpr hScope]
    rfl
  · rw [if_neg hScope, Bool.eq_false_iff.mpr (mt hAllowed.mp hScope)]
    rfl

theorem step_eq (sent : List RecordRequest) (c : Call ε) :
    p.step sent c = if p.InScope c.request.fqdn then sent ++ [c.request] else sent := by
  obtain ⟨operation, info, reply⟩ := c
  cases operation <;>
  · simp only [step, present, cleanUp, Call.request]
    rw [pass_eq hDevice hDot, apply_ite Prod.fst]
    rfl

theorem run_eq (sent : List RecordRequest) (calls : List (Call ε)) :
    p.run sent calls =
      sent ++ (calls.map Call.request).filter fun r => decide (p.InScope r.fqdn) := by
  induction calls generalizing sent with
  | nil => simp [run]
  | cons c calls ih =>
      rw [run, List.foldl_cons, ← run, ih, step_eq hDevice hDot, List.map_cons, List.filter_cons]
      by_cases hScope : p.InScope c.request.fqdn
      · simp [hScope]
      · simp [hScope]

end Scope

/-- A name is passed on exactly if it is the challenge name of the suffix or has the device id as
one of its labels; it is refused with nothing sent otherwise. So what reaches atreoLINK over a
whole issuance is what was asked for within that scope. -/
theorem passed_on_iff_in_scope {p : AtreoLinkDNSProvider} (hDevice : p.deviceID ≠ "")
    (hDot : '.' ∉ chars p.deviceID) :
    (∀ (info : ChallengeInfo) (reply : Except ε Unit) (sent : List RecordRequest),
      let fqdn := trimEnd "." info.effectiveFQDN
      let inScope := fqdn = "_acme-challenge" ++ "." ++ p.currentSuffix ∨ p.deviceID ∈ labels fqdn
      let refused : Except (ProviderError ε) Unit :=
        .error (.scopeMismatch fqdn p.currentSuffix p.deviceID)
      ((p.present info reply sent).1 = sent ++ [⟨.dnsPresent, fqdn, info.value⟩] ↔ inScope) ∧
      ((p.cleanUp info reply sent).1 = sent ++ [⟨.dnsCleanup, fqdn, info.value⟩] ↔ inScope) ∧
      (¬inScope → p.present info reply sent = (sent, refused) ∧
        p.cleanUp info reply sent = (sent, refused))) ∧
    ∀ calls : List (Call ε),
      p.run [] calls = (calls.map Call.request).filter fun r => decide (p.InScope r.fqdn) := by
  refine ⟨?_, ?_⟩
  · intro info reply sent fqdn inScope refused
    have hPass := fun operation => pass_eq hDevice hDot operation info reply sent
    have hSent : ∀ operation,
        (pass operation p info reply sent).1 = sent ++ [⟨operation, fqdn, info.value⟩] ↔
          inScope := by
      intro operation
      rw [hPass operation]
      by_cases hScope : p.InScope fqdn
      · rw [if_pos hScope]
        exact ⟨fun _ => hScope, fun _ => rfl⟩
      · rw [if_neg hScope]
        exact ⟨fun hEq => absurd hEq (by simp), fun h => absurd h hScope⟩
    refine ⟨hSent .dnsPresent, hSent .dnsCleanup, ?_⟩
    intro hOut
    exact ⟨(hPass .dnsPresent).trans (if_neg hOut), (hPass .dnsCleanup).trans (if_neg hOut)⟩
  · intro calls
    rw [run_eq hDevice hDot, List.nil_append]

/-- A name that only ends like the device id is refused, and one with the id as a label is
passed on. -/
theorem device_label_passed_on :
    let p : AtreoLinkDNSProvider := ⟨"lan.example.org", "dev1"⟩
    let calls : List (Call Unit) :=
      [⟨.dnsPresent, ⟨"_acme-challenge.dev1.zone.example.", "token"⟩, .ok ()⟩,
        ⟨.dnsPresent, ⟨"_acme-challenge.xdev1.zone.example.", "token"⟩, .ok ()⟩,
        ⟨.dnsCleanup, ⟨"_acme-challenge.lan.example.org", "token"⟩, .error ()⟩]
    p.run [] calls =
      [⟨.dnsPresent, "_acme-challenge.dev1.zone.example", "token"⟩,
        ⟨.dnsCleanup, "_acme-challenge.lan.example.org", "token"⟩] := by
  intro p calls
  have hRun := (passed_on_iff_in_scope (p := p) (by decide) (by decide)).2 calls
  rw [hRun]
  decide +kernel

end AtreoLinkDNSProvider

end Certs
