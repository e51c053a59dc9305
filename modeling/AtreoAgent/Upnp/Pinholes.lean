import AtreoAgent.Machine.Run
import AtreoAgent.Machine.Table
import AtreoAgent.Upnp.Client

/-! The IPv6 pinholes (`RefreshV6Pinholes`). Every few minutes each address gets a request,
by PCP first and by UPnP if that fails. An address that is already tracked is kept as it is
when PCP refuses, so it is renewed only if PCP accepts. -/
namespace Upnp

open Codec Atreolink Net Machine

/-- A firewall control of the gateway. The status may not be known. -/
structure Firewall where
  status : Option (Bool × Bool)
  /-- The id of the pinhole for an address, if it is accepted. -/
  addPinhole : String → Option Nat

/-- One call, at its time, with what the network answers. -/
structure Refresh where
  now : Time
  addrs : List IP
  /-- The gateway of the default route. -/
  v6gateway : Option String
  newNonce : String → Option Nonce
  /-- Whether the gateway accepts a MAP request for an address. -/
  pcpMap : String → Nonce → Bool
  /-- The firewall controls that the discovery finds, unless it fails. -/
  firewalls : Option (List Firewall)
  persisted : Bool

inductive PcpFailure where
  /-- `disabled` -/
  | disabled
  /-- `no IPv6 gateway: …` -/
  | noGateway
  /-- the request fails -/
  | refused
  deriving DecidableEq, Repr

inductive UpnpFailure where
  /-- `UPnP IPv6 firewall discovery: …` -/
  | discovery
  /-- `no IGDv2 IPv6 firewall control found` -/
  | noControl
  /-- `IGDv2 firewall pinholes not permitted (enabled=… allowed=…)` -/
  | notPermitted (enabled allowed : Bool)
  /-- `AddPinhole: …` -/
  | addPinhole
  deriving DecidableEq, Repr

inductive PinholeError where
  /-- the random source fails -/
  | nonce
  /-- `[…] (…) PCP: …; UPnP: …`, with the address and whether it was tracked -/
  | both (key : String) (renew : Bool) (pcp : PcpFailure) (upnp : UpnpFailure)
  deriving DecidableEq, Repr

/-- What comes of one address. -/
inductive Outcome where
  /-- A request was accepted. -/
  | opened (pinhole : Pinhole)
  /-- PCP refused to renew a pinhole, which is kept. -/
  | kept
  | failed (e : PinholeError)

def Outcome.isOpened : Outcome → Bool
  | .opened _ => true
  | _ => false

def Outcome.error : Outcome → Option PinholeError
  | .failed e => some e
  | _ => none

/-- The addresses that get a pinhole, in text form. -/
def Refresh.desired (call : Refresh) : List String :=
  ((call.addrs.filter fun ip => (to4 ip).isNone && ip.length = 16).map ipString).dedup

/-- The request goes to the first control. -/
def tryUPnPPinhole (call : Refresh) (key : String) : Except UpnpFailure Pinhole :=
  match call.firewalls with
  | none => .error .discovery
  | some [] => .error .noControl
  | some (fw :: _) =>
      match fw.status.filter fun s => !s.1 || !s.2 with
      | some (enabled, allowed) => .error (.notPermitted enabled allowed)
      | none =>
          match fw.addPinhole key with
          | none => .error .addPinhole
          | some uid => .ok ⟨zeroNonce, .upnp uid⟩

/-- The request by UPnP, after PCP has failed. -/
def upnpOutcome (call : Refresh) (key : String) (renew : Bool) (pcpErr : PcpFailure) : Outcome :=
  match tryUPnPPinhole call key with
  | .ok pinhole => .opened pinhole
  | .error upErr => .failed (.both key renew pcpErr upErr)

namespace Client

/-- `ensureV6Pinhole`, up to storing the pinhole. -/
def outcome (c : Client) (call : Refresh) (key : String) : Outcome :=
  let existing := c.v6pinholes.lookup key
  if !c.pcpEnabled then upnpOutcome call key existing.isSome .disabled
  else
    match call.v6gateway with
    | none => upnpOutcome call key existing.isSome .noGateway
    | some gateway =>
        match existing with
        | some pinhole =>
            if call.pcpMap key pinhole.nonce then .opened ⟨pinhole.nonce, .pcp gateway⟩ else .kept
        | none =>
            match call.newNonce key with
            | none => .failed .nonce
            | some nonce =>
                if call.pcpMap key nonce then .opened ⟨nonce, .pcp gateway⟩
                else upnpOutcome call key false .refused

def storePinhole (c : Client) (persisted : Bool) (key : String) (p : Pinhole) : Client :=
  { c with v6pinholes := c.v6pinholes.insert key p }.persistNonces persisted

def ensureV6Pinhole (c : Client) (call : Refresh) (key : String) : Client :=
  match c.outcome call key with
  | .opened pinhole => c.storePinhole call.persisted key pinhole
  | _ => c

/-- Pinholes of addresses that are not wanted any more go first. -/
def dropStale (c : Client) (call : Refresh) : Client :=
  let stale := c.v6pinholes.keys.filter (· ∉ call.desired)
  if stale = [] then c
  else
    { c with v6pinholes := stale.foldl (fun pinholes key => pinholes.erase key) c.v6pinholes
      }.persistNonces call.persisted

/-- The addresses one after the other: the client, those for which a request was accepted,
and the first error. -/
def ensureEach (call : Refresh) : Client → List String → Client × List String × Option PinholeError
  | c, [] => (c, [], none)
  | c, key :: keys =>
      let (d, accepted, err) := ensureEach call (c.ensureV6Pinhole call key) keys
      (d, (if (c.outcome call key).isOpened then [key] else []) ++ accepted,
        (c.outcome call key).error.or err)

def refreshV6Pinholes (c : Client) (call : Refresh) :
    Client × List String × Option PinholeError :=
  (c.dropStale call).ensureEach call call.desired

end Client

/-- The client, and when the gateway last accepted a request for an address. -/
structure Pinholes where
  client : Client
  accepted : String → Option Time

namespace Pinholes

def step (w : Pinholes) (call : Refresh) : Pinholes :=
  let (client, accepted, _) := w.client.refreshV6Pinholes call
  { client := client
    accepted := fun key => if key ∈ accepted then some call.now else w.accepted key }

/-- The call returns nil. -/
def Succeeds (w : Pinholes) (call : Refresh) : Prop :=
  (w.client.refreshV6Pinholes call).2.2 = none

/-- The gateway has accepted a request within the lease. -/
def Covered (w : Pinholes) (now : Time) (key : String) : Prop :=
  ∃ t : Int, w.accepted key = some t ∧ now - t ≤ pinholeLeaseSeconds * 1000000000

/-- The address is tracked, and the gateway refuses to renew it by PCP. -/
def Refused (w : Pinholes) (call : Refresh) (key : String) : Prop :=
  w.client.pcpEnabled = true ∧ call.v6gateway.isSome = true ∧
    ∃ pinhole ∈ w.client.v6pinholes.lookup key, call.pcpMap key pinhole.nonce = false

end Pinholes

namespace Client

variable {c d : Client} {call : Refresh} {key : String}

/-- What comes of an address depends on its own pinhole only. -/
theorem outcome_congr (hPcp : c.pcpEnabled = d.pcpEnabled)
    (hLookup : c.v6pinholes.lookup key = d.v6pinholes.lookup key) :
    c.outcome call key = d.outcome call key := by
  rw [outcome, outcome, hPcp, hLookup]

theorem pcpEnabled_ensureV6Pinhole : (c.ensureV6Pinhole call key).pcpEnabled = c.pcpEnabled := by
  rw [ensureV6Pinhole]
  split <;> rfl

variable {other : String} {keys : List String}

theorem lookup_ensureV6Pinhole (h : other ≠ key) :
    (c.ensureV6Pinhole call key).v6pinholes.lookup other = c.v6pinholes.lookup other := by
  rw [ensureV6Pinhole]
  split
  · exact AList.lookup_insert_ne h
  · rfl

theorem mem_ensureV6Pinhole (h : other ∈ (c.ensureV6Pinhole call key).v6pinholes) :
    other ∈ c.v6pinholes ∨ other = key := by
  rw [ensureV6Pinhole] at h
  split at h
  · exact ((AList.mem_insert _).mp h).symm
  · exact .inl h

theorem outcome_ensureV6Pinhole (h : other ≠ key) :
    (c.ensureV6Pinhole call key).outcome call other = c.outcome call other :=
  outcome_congr pcpEnabled_ensureV6Pinhole (lookup_ensureV6Pinhole h)

/-- The addresses behind the first are handled as if it were not there. -/
theorem outcome_of_nodup {first : String} (hFirst : first ∉ keys) :
    ∀ key ∈ keys, (c.ensureV6Pinhole call first).outcome call key = c.outcome call key := by
  intro key hMem
  exact outcome_ensureV6Pinhole fun h => hFirst (h ▸ hMem)

theorem accepted_ensureEach (call : Refresh) (hNodup : keys.Nodup) (c : Client) :
    (c.ensureEach call keys).2.1 = keys.filter fun key => (c.outcome call key).isOpened := by
  induction keys generalizing c with
  | nil => rfl
  | cons first keys ih =>
      obtain ⟨hFirst, hRest⟩ := List.nodup_cons.mp hNodup
      rw [ensureEach]
      dsimp only
      rw [ih hRest, List.filter_congr fun key hMem => by rw [outcome_of_nodup hFirst key hMem],
        List.filter_cons]
      split <;> rfl

theorem error_ensureEach (call : Refresh) (hNodup : keys.Nodup) (c : Client) :
    (c.ensureEach call keys).2.2 = none ↔ ∀ key ∈ keys, (c.outcome call key).error = none := by
  induction keys generalizing c with
  | nil => simp [ensureEach]
  | cons first keys ih =>
      obtain ⟨hFirst, hRest⟩ := List.nodup_cons.mp hNodup
      rw [ensureEach]
      dsimp only
      rw [Option.or_eq_none_iff, ih hRest, List.forall_mem_cons]
      refine and_congr_right fun _ => forall₂_congr fun key hMem => ?_
      rw [outcome_of_nodup hFirst key hMem]

theorem tracked_ensureEach (h : key ∈ (c.ensureEach call keys).1.v6pinholes) :
    key ∈ c.v6pinholes ∨ key ∈ keys := by
  induction keys generalizing c with
  | nil => exact .inl h
  | cons first keys ih =>
      rw [List.mem_cons]
      rcases ih h with hMem | hMem
      · rcases mem_ensureV6Pinhole hMem with hOld | rfl
        · exact .inl hOld
        · exact .inr (.inl rfl)
      · exact .inr (.inr hMem)

/-- The pinholes of the addresses that are wanted stay, the others go. -/
theorem lookup_dropStale (c : Client) (call : Refresh) (key : String) :
    (c.dropStale call).v6pinholes.lookup key =
      if key ∈ call.desired then c.v6pinholes.lookup key else none := by
  have hStale : key ∈ c.v6pinholes.keys.filter (· ∉ call.desired) ↔
      key ∈ c.v6pinholes ∧ key ∉ call.desired := by
    rw [List.mem_filter, decide_eq_true_eq, AList.mem_keys]
  have hMissing : key ∉ c.v6pinholes → c.v6pinholes.lookup key = none := by
    intro h
    exact AList.lookup_eq_none.mpr h
  rw [dropStale]
  split
  next hNone =>
    rw [hNone] at hStale
    split
    · rfl
    next hOut =>
      refine hMissing fun hMem => ?_
      cases hStale.mpr ⟨hMem, hOut⟩
  · refine (Table.lookup_foldl_erase _ _ key).trans ?_
    rw [if_congr hStale rfl rfl]
    by_cases hWanted : key ∈ call.desired
    · simp [hWanted]
    · by_cases hMem : key ∈ c.v6pinholes
      · simp [hWanted, hMem]
      · simp [hWanted, hMissing hMem]

theorem outcome_dropStale (c : Client) (h : key ∈ call.desired) :
    (c.dropStale call).outcome call key = c.outcome call key := by
  refine outcome_congr ?_ ?_
  · rw [dropStale]
    split <;> rfl
  · rw [lookup_dropStale, if_pos h]

/-- A pinhole is kept without a request exactly if PCP refuses to renew it. -/
theorem outcome_kept_iff : c.outcome call key = .kept ↔
    c.pcpEnabled = true ∧ call.v6gateway.isSome = true ∧
      ∃ pinhole ∈ c.v6pinholes.lookup key, call.pcpMap key pinhole.nonce = false := by
  have hUpnp : ∀ renew e, upnpOutcome call key renew e ≠ .kept := by
    intro renew e
    rw [upnpOutcome]
    split <;> simp
  rw [outcome]
  cases c.pcpEnabled with
  | false => simp [hUpnp]
  | true =>
      cases call.v6gateway with
      | none => simp [hUpnp]
      | some gateway =>
          cases c.v6pinholes.lookup key with
          | some pinhole => cases hMap : call.pcpMap key pinhole.nonce <;> simp [hMap]
          | none =>
              cases call.newNonce key with
              | none => simp
              | some nonce => cases hMap : call.pcpMap key nonce <;> simp [hMap, hUpnp]

end Client

namespace Pinholes

variable {w : Pinholes} {call : Refresh}

variable {key : String}

theorem accepted_step (hKey : key ∈ call.desired) :
    (w.step call).accepted key =
      if (w.client.outcome call key).isOpened then some call.now else w.accepted key := by
  have hNodup : call.desired.Nodup := List.nodup_dedup _
  refine if_congr ?_ rfl rfl
  rw [Client.accepted_ensureEach call hNodup, List.mem_filter,
    Client.outcome_dropStale w.client hKey]
  exact and_iff_right hKey

theorem succeeds_iff :
    w.Succeeds call ↔ ∀ key ∈ call.desired, (w.client.outcome call key).error = none := by
  have hNodup : call.desired.Nodup := List.nodup_dedup _
  have hErr := Client.error_ensureEach call hNodup (w.client.dropStale call)
  refine hErr.trans (forall₂_congr fun key hKey => ?_)
  rw [Client.outcome_dropStale w.client hKey]

/-- Only addresses that are wanted are tracked after a call. -/
theorem tracked_step (h : key ∈ (w.step call).client.v6pinholes) : key ∈ call.desired := by
  rcases Client.tracked_ensureEach h with hOld | hWanted
  · by_contra hOut
    have hNone := Client.lookup_dropStale w.client call key
    rw [if_neg hOut] at hNone
    exact AList.lookup_eq_none.mp hNone hOld
  · exact hWanted

/-- An address is covered after a call that succeeds, unless it was kept and its lease has run
out. -/
theorem covered_step_iff (hSucceeds : w.Succeeds call) (hKey : key ∈ call.desired) :
    (w.step call).Covered call.now key ↔ (w.Refused call key → w.Covered call.now key) := by
  have hAccepted := accepted_step (w := w) hKey
  have hError := succeeds_iff.mp hSucceeds key hKey
  rw [Covered, hAccepted, Refused, ← Client.outcome_kept_iff]
  cases hOutcome : w.client.outcome call key with
  | opened pinhole =>
      rw [if_pos (by rfl)]
      refine iff_of_true ⟨call.now, rfl, ?_⟩ fun hKept => by cases hKept
      rw [Int.sub_self]
      decide
  | kept =>
      rw [if_neg (by simp [Outcome.isOpened])]
      exact ⟨fun h _ => h, fun h => h rfl⟩
  | failed e =>
      rw [hOutcome] at hError
      cases hError

end Pinholes

/-- After every call that returns nil all wanted addresses are covered and no others are
tracked, just if no address is kept past its lease because PCP refuses to renew it. -/
theorem pinholes_covered_iff (w : Pinholes) (calls : List Refresh) :
    (∀ n call, calls[n]? = some call → (run Pinholes.step w (calls.take n)).Succeeds call →
      (∀ key ∈ call.desired,
        (run Pinholes.step w (calls.take (n + 1))).Covered call.now key) ∧
      ∀ key ∈ (run Pinholes.step w (calls.take (n + 1))).client.v6pinholes, key ∈ call.desired) ↔
    ∀ n call, calls[n]? = some call → (run Pinholes.step w (calls.take n)).Succeeds call →
      ∀ key ∈ call.desired, (run Pinholes.step w (calls.take n)).Refused call key →
        (run Pinholes.step w (calls.take n)).Covered call.now key := by
  constructor
  · intro h n call hCall hSucceeds key hKey
    have hCovered := (h n call hCall hSucceeds).1 key hKey
    rw [run_take_succ hCall] at hCovered
    exact (Pinholes.covered_step_iff hSucceeds hKey).mp hCovered
  · intro h n call hCall hSucceeds
    rw [run_take_succ hCall]
    refine ⟨fun key hKey => ?_, fun key hTracked => Pinholes.tracked_step hTracked⟩
    exact (Pinholes.covered_step_iff hSucceeds hKey).mpr (h n call hCall hSucceeds key hKey)

/-- The address of one host. -/
def hostAddress : IP := [0x20, 0x01, 0x0d, 0xb8, 0, 0, 0, 0, 0, 0, 0, 0, 0, 0, 0, 1]

/-- A call after the given number of seconds, on a gateway that refuses PCP and accepts UPnP. -/
def upnpOnly (seconds : Int) : Refresh where
  now := seconds * 1000000000
  addrs := [hostAddress]
  v6gateway := some "fe80::1"
  newNonce := fun _ => some (List.replicate 12 7)
  pcpMap := fun _ _ => false
  firewalls := some [⟨none, fun _ => some 1⟩]
  persisted := true

/-- Three calls, half an hour apart. -/
def halfHourly : List Refresh := [upnpOnly 0, upnpOnly 1801, upnpOnly 3602]

def freshPinholes : Pinholes := { client := newClient 51820, accepted := fun _ => none }

/-- UPnP would accept each time, but it is asked only once: the third call returns nil when the
lease has run out. -/
theorem upnp_pinhole_not_renewed :
    halfHourly.map (fun call => call.now / 1000000000) = [0, 1801, 3602] ∧
      (∀ call ∈ halfHourly, call.desired = ["2001:db8::1"] ∧
        (tryUPnPPinhole call "2001:db8::1").toOption.isSome = true) ∧
      (run Pinholes.step freshPinholes (halfHourly.take 2)).Succeeds (upnpOnly 3602) ∧
      ¬ (run Pinholes.step freshPinholes (halfHourly.take 3)).Covered (upnpOnly 3602).now
        "2001:db8::1" := by
  have hRun : halfHourly.map (fun call => call.now / 1000000000) = [0, 1801, 3602] ∧
      (∀ call ∈ halfHourly, call.desired = ["2001:db8::1"] ∧
        (tryUPnPPinhole call "2001:db8::1").toOption.isSome = true) ∧
      ((run Pinholes.step freshPinholes (halfHourly.take 2)).client.refreshV6Pinholes
        (upnpOnly 3602)).2.2 = none ∧
      (run Pinholes.step freshPinholes (halfHourly.take 3)).accepted "2001:db8::1" = some 0 := by
    decide +kernel
  obtain ⟨hTimes, hAccepts, hNil, hLast⟩ := hRun
  refine ⟨hTimes, hAccepts, hNil, ?_⟩
  rintro ⟨t, ht, hLease⟩
  rw [hLast] at ht
  cases ht
  exact absurd hLease (by decide)

end Upnp
