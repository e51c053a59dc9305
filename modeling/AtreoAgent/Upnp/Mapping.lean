import AtreoAgent.Machine.Run
import AtreoAgent.Upnp.Client

/-! The IPv4 mapping of the WireGuard port (`TryMapping`, `RenewMapping`). The protocols are
tried in turn until a gateway grants a mapping. The port that is asked for and the port that
is advertised are one field, which only `TryMapping` sets. -/
namespace Upnp

open Codec Machine

/-- A device that offers a connection service, and how it answers. -/
structure Device where
  service : Service
  externalIP : Option String
  accepts : Bool
  deriving DecidableEq, Repr

/-- What the network answers during one call. -/
structure Answers where
  localIP : Option String
  /-- The default gateway. -/
  gateway : Option String
  newNonce : Option Nonce
  /-- The address and port that PCP grants. -/
  pcp : Option (String × Nat)
  natpmpAddress : Option String
  natpmpPort : Option Nat
  /-- The first connection service that the standard discovery finds. -/
  highLevel : Option Device
  /-- The devices that the search on each interface finds, in the order they are tried. -/
  rawSSDP : List Device
  persisted : Bool

/-- A request for a mapping. -/
inductive MapRequest where
  | pcp (clientIP : String) (internalPort suggestedPort lifetime : Nat) (nonce : Nonce)
  | natpmp (internalPort suggestedPort lifetime : Nat)
  | service (service : Service) (suggestedPort internalPort : Nat) (clientIP description : String)
  deriving DecidableEq, Repr

def MapRequest.suggested : MapRequest → Nat
  | .pcp _ _ port _ _ => port
  | .natpmp _ port _ => port
  | .service _ port _ _ _ => port

/-- The client after an attempt, the requests it made, and what was granted. -/
structure Attempt where
  client : Client
  requests : List MapRequest := []
  granted : Option (String × Nat) := none

/-- Go on if nothing was granted. -/
def Attempt.orElse (attempt : Attempt) (next : Client → Attempt) : Attempt :=
  match attempt.granted with
  | some _ => attempt
  | none =>
      let last := next attempt.client
      { last with requests := attempt.requests ++ last.requests }

namespace Client

/-- The nonce is kept as long as the internal address is the same. -/
def v4MappingNonce (g : Answers) (c : Client) (localIP : String) : Option (Client × Nonce) :=
  match c.v4nonce.filter (·.2 = localIP) with
  | some (nonce, _) => some (c, nonce)
  | none => g.newNonce.map fun n => ({ c with v4nonce := some (n, localIP) }, n)

def tryPCPv4 (g : Answers) (localIP : String) (c : Client) : Attempt :=
  match g.gateway with
  | none => { client := c }
  | some gateway =>
      match c.v4MappingNonce g localIP with
      | none => { client := c }
      | some (c, nonce) =>
          let requests := [.pcp localIP (uint16 c.internalPort) (uint16 c.externalPort)
            mappingLeaseSeconds nonce]
          match g.pcp with
          | none => { client := c, requests := requests }
          | some granted =>
              { client := { c.persistNonces g.persisted with
                  v4cleanup := some (.pcp gateway nonce) }
                requests := requests, granted := some granted }

def tryNATPMP (g : Answers) (c : Client) : Attempt :=
  match g.gateway, g.natpmpAddress with
  | some gateway, some extIP =>
      let requests := [.natpmp (uint16 c.internalPort) (uint16 c.externalPort) mappingLeaseSeconds]
      match g.natpmpPort with
      | none => { client := c, requests := requests }
      | some mappedPort =>
          { client := { c with v4cleanup := some (.natpmp gateway) }
            requests := requests, granted := some (extIP, mappedPort) }
  | _, _ => { client := c }

/-- `mapWithIPConn2`, `mapWithIPConn1` and `mapWithPPP`; the port is granted as asked. -/
def mapWith (localIP : String) (device : Device) (c : Client) : Attempt :=
  match device.externalIP with
  | none => { client := c }
  | some extIP =>
      let requests := [.service device.service (uint16 c.externalPort) (uint16 c.internalPort)
        localIP c.description]
      if device.accepts then
        { client := { c with v4cleanup := some (.service device.service) }
          requests := requests, granted := some (extIP, c.externalPort) }
      else { client := c, requests := requests }

def tryHighLevel (g : Answers) (localIP : String) (c : Client) : Attempt :=
  match g.highLevel with
  | none => { client := c }
  | some device => c.mapWith localIP device

def tryRawSSDPAllInterfaces (g : Answers) (localIP : String) (c : Client) : Attempt :=
  g.rawSSDP.foldl (fun attempt device => attempt.orElse (mapWith localIP device)) { client := c }

def addMapping (g : Answers) (c : Client) : Attempt :=
  match g.localIP with
  | none => { client := c }
  | some localIP =>
      (((if c.pcpEnabled then c.tryPCPv4 g localIP else { client := c }).orElse
        (tryNATPMP g)).orElse (tryHighLevel g localIP)).orElse (tryRawSSDPAllInterfaces g localIP)

end Client

inductive Call where
  | tryMapping (g : Answers)
  | renewMapping (g : Answers)

namespace Client

/-- The part both calls share. -/
def attempt (c : Client) : Call → Attempt
  | .tryMapping g => c.addMapping g
  | .renewMapping g => c.addMapping g

/-- The first call takes over the port that was granted, a renewal does not. -/
def step (c : Client) (call : Call) : Client :=
  let attempt := c.attempt call
  match call, attempt.granted with
  | _, none => attempt.client
  | .tryMapping _, some (ip, port) =>
      { attempt.client with externalPort := port, lastExternalIP := ip }
  | .renewMapping _, some (ip, _) => { attempt.client with lastExternalIP := ip }

end Client

/-- An attempt asks for the external port of the client, keeps it, and leaves a mapping to
remove if one is granted. -/
structure Attempt.AsksFor (attempt : Attempt) (port : Nat) : Prop where
  client : attempt.client.externalPort = port
  requests : ∀ r ∈ attempt.requests, r.suggested = uint16 port
  cleanup : attempt.granted.isSome = true → attempt.client.v4cleanup.isSome = true

theorem Attempt.AsksFor.none (c : Client) : Attempt.AsksFor { client := c } c.externalPort :=
  ⟨rfl, by simp, by simp⟩

theorem Attempt.AsksFor.orElse {attempt : Attempt} {port : Nat} (h : attempt.AsksFor port)
    {next : Client → Attempt} (hNext : ∀ c, (next c).AsksFor c.externalPort) :
    (attempt.orElse next).AsksFor port := by
  have hLast := hNext attempt.client
  rw [h.client] at hLast
  rw [Attempt.orElse]
  split
  · exact h
  · refine ⟨hLast.client, ?_, hLast.cleanup⟩
    intro r hr
    rcases List.mem_append.mp hr with hFirst | hSecond
    · exact h.requests r hFirst
    · exact hLast.requests r hSecond

namespace Client

theorem asksFor_tryPCPv4 (g : Answers) (localIP : String) (c : Client) :
    (c.tryPCPv4 g localIP).AsksFor c.externalPort := by
  rw [tryPCPv4]
  split
  · exact .none c
  · rw [v4MappingNonce]
    cases c.v4nonce.filter (·.2 = localIP) with
    | some known =>
        dsimp only
        split <;> exact ⟨rfl, by simp [MapRequest.suggested], by simp⟩
    | none =>
        cases g.newNonce with
        | none => exact .none c
        | some nonce =>
            dsimp only [Option.map_some]
            split <;> exact ⟨rfl, by simp [MapRequest.suggested], by simp⟩

theorem asksFor_tryNATPMP (g : Answers) (c : Client) : (c.tryNATPMP g).AsksFor c.externalPort := by
  rw [tryNATPMP]
  split
  · dsimp only
    split <;> exact ⟨rfl, by simp [MapRequest.suggested], by simp⟩
  · exact .none c

theorem asksFor_mapWith (localIP : String) (device : Device) (c : Client) :
    (c.mapWith localIP device).AsksFor c.externalPort := by
  rw [mapWith]
  split
  · exact .none c
  · dsimp only
    split <;> exact ⟨rfl, by simp [MapRequest.suggested], by simp⟩

theorem asksFor_tryHighLevel (g : Answers) (localIP : String) (c : Client) :
    (c.tryHighLevel g localIP).AsksFor c.externalPort := by
  rw [tryHighLevel]
  split
  · exact .none c
  next device _ => exact asksFor_mapWith localIP device c

theorem asksFor_tryRawSSDP (g : Answers) (localIP : String) (c : Client) :
    (c.tryRawSSDPAllInterfaces g localIP).AsksFor c.externalPort := by
  have hLoop : ∀ (devices : List Device) (attempt : Attempt), attempt.AsksFor c.externalPort →
      (devices.foldl (fun attempt device => attempt.orElse (mapWith localIP device))
        attempt).AsksFor c.externalPort := by
    intro devices
    induction devices with
    | nil => exact fun _ h => h
    | cons device devices ih => exact fun _ h => ih _ (h.orElse (asksFor_mapWith localIP device))
  exact hLoop g.rawSSDP _ (.none c)

/-- Every request of a call asks for the port that the client has at that time. -/
theorem asksFor_attempt (c : Client) (call : Call) : (c.attempt call).AsksFor c.externalPort := by
  have hMapping : ∀ g, (c.addMapping g).AsksFor c.externalPort := by
    intro g
    rw [addMapping]
    split
    · exact .none c
    next localIP _ =>
      have hFirst : (if c.pcpEnabled then c.tryPCPv4 g localIP else { client := c } :
          Attempt).AsksFor c.externalPort := by
        split
        · exact asksFor_tryPCPv4 g localIP c
        · exact .none c
      exact ((hFirst.orElse (asksFor_tryNATPMP g)).orElse (asksFor_tryHighLevel g localIP)).orElse
        (asksFor_tryRawSSDP g localIP)
  cases call with
  | tryMapping g => exact hMapping g
  | renewMapping g => exact hMapping g

/-- What is granted, if anything is, has the given port. -/
def GrantsPort (port : Nat) (c : Client) (call : Call) : Prop :=
  ∀ granted ∈ (c.attempt call).granted, granted.2 = port

theorem externalPort_step {port : Nat} {c : Client} {call : Call} (hPort : c.externalPort = port)
    (hGrants : c.GrantsPort port call) : (c.step call).externalPort = port := by
  have hClient := (c.asksFor_attempt call).client
  cases hGranted : (c.attempt call).granted with
  | none =>
      simp only [step, hGranted]
      rw [hClient, hPort]
  | some granted =>
      cases call with
      | tryMapping g =>
          simp only [step, hGranted]
          exact hGrants granted hGranted
      | renewMapping g =>
          simp only [step, hGranted]
          rw [hClient, hPort]

/-- A call that is granted the port which is asked for leaves it advertised. -/
theorem publicEndpoint_step {c : Client} {call : Call} {ip : String}
    (hGranted : (c.attempt call).granted = some (ip, c.externalPort)) :
    (c.step call).publicEndpoint = (ip, c.externalPort) := by
  have hAsks := c.asksFor_attempt call
  have hCleanup : (c.attempt call).client.v4cleanup.isNone = false := by
    have hSome := hAsks.cleanup (by rw [hGranted]; rfl)
    rwa [← Option.not_isSome, Bool.not_eq_false']
  cases call with
  | tryMapping g => simp [step, hGranted, publicEndpoint, hCleanup]
  | renewMapping g => simp [step, hGranted, publicEndpoint, hCleanup, hAsks.client]

end Client

/-- The client as the agent sets it up. -/
def configured (port : UInt16) (pcpEnabled : Bool) (entries : List (String × String)) : Client :=
  ((newClient port.toNat).setPCPEnabled pcpEnabled).setStatePath entries

theorem externalPort_loadNonces (c : Client) (entries : List (String × String)) :
    (c.loadNonces entries).externalPort = c.externalPort := by
  induction entries generalizing c with
  | nil => rfl
  | cons entry entries ih =>
      rw [Client.loadNonces, List.foldl_cons]
      refine (ih _).trans ?_
      rw [Client.loadNonce]
      split
      · split
        · rfl
        · split <;> rfl
      · rfl

/-- While every mapping that is granted has the configured port, every request asks for it,
and what is advertised is what was granted. -/
theorem configured_port_kept (port : UInt16) (pcpEnabled : Bool) (entries : List (String × String))
    {calls : List Call}
    (hGrants : Meets Client.step (Client.GrantsPort port.toNat)
      (configured port pcpEnabled entries) calls) {n : Nat} {call : Call}
    (hCall : calls[n]? = some call) :
    (∀ r ∈ ((run Client.step (configured port pcpEnabled entries) (calls.take n)).attempt
        call).requests, r.suggested = port.toNat) ∧
      ∀ granted ∈ ((run Client.step (configured port pcpEnabled entries) (calls.take n)).attempt
        call).granted,
        (run Client.step (configured port pcpEnabled entries) (calls.take (n + 1))).publicEndpoint =
          granted := by
  have hStart : (configured port pcpEnabled entries).externalPort = port.toNat := by
    rw [configured, Client.setStatePath, externalPort_loadNonces]
    rfl
  have hPort := invariant_run (fun c : Client => c.externalPort = port.toNat)
    (fun c call h hGrants => c.externalPort_step h hGrants) hStart (hGrants.take n)
  have hNow := hGrants.getElem hCall
  rw [run_take_succ hCall]
  generalize run Client.step (configured port pcpEnabled entries) (calls.take n) = c at hPort hNow
  constructor
  · intro r hr
    rw [(c.asksFor_attempt call).requests r hr, hPort, uint16]
    exact Nat.mod_eq_of_lt port.toNat_lt
  · rintro ⟨ip, granted⟩ hGranted
    have hSame : granted = c.externalPort := (hNow _ hGranted).trans hPort.symm
    subst hSame
    exact Client.publicEndpoint_step hGranted

/-- A gateway that speaks PCP and grants the given port. -/
def pcpGateway (port : Nat) : Answers where
  localIP := some "192.168.1.2"
  gateway := some "192.168.1.1"
  newNonce := some (List.replicate 12 7)
  pcp := some ("203.0.113.9", port)
  natpmpAddress := none
  natpmpPort := none
  highLevel := none
  rawSSDP := []
  persisted := true

/-- The gateway first reassigns the port and then gives it back. -/
def reassigned : List Call := [.tryMapping (pcpGateway 4000), .renewMapping (pcpGateway 51820)]

/-- The renewal asks for the reassigned port, and what is advertised after it is not what was
granted. -/
theorem reassigned_port_requested_and_advertised :
    ((run Client.step (configured 51820 true []) (reassigned.take 1)).attempt
        (.renewMapping (pcpGateway 51820))).requests.map (·.suggested) = [4000] ∧
      ((run Client.step (configured 51820 true []) (reassigned.take 1)).attempt
        (.renewMapping (pcpGateway 51820))).granted = some ("203.0.113.9", 51820) ∧
      (run Client.step (configured 51820 true []) (reassigned.take 2)).publicEndpoint =
        ("203.0.113.9", 4000) := by
  decide +kernel

/-- The gateway grants the configured port twice. -/
def granted : List Call := [.tryMapping (pcpGateway 51820), .renewMapping (pcpGateway 51820)]

theorem granted_port_kept :
    (∀ r ∈ ((run Client.step (configured 51820 true []) (granted.take 1)).attempt
        (.renewMapping (pcpGateway 51820))).requests, r.suggested = 51820) ∧
      (run Client.step (configured 51820 true []) (granted.take 2)).publicEndpoint =
        ("203.0.113.9", 51820) := by
  have hGranted : ((configured 51820 true []).attempt (.tryMapping (pcpGateway 51820))).granted =
        some ("203.0.113.9", 51820) ∧
      ((run Client.step (configured 51820 true []) (granted.take 1)).attempt
        (.renewMapping (pcpGateway 51820))).granted = some ("203.0.113.9", 51820) := by
    decide +kernel
  have hMeets : Meets Client.step (Client.GrantsPort 51820) (configured 51820 true []) granted := by
    refine ⟨?_, ?_, trivial⟩
    · intro p hp
      rw [hGranted.1] at hp
      cases hp
      rfl
    · intro p hp
      have hEq := hGranted.2.symm.trans hp
      cases hEq
      rfl
  obtain ⟨hRequests, hEndpoint⟩ := configured_port_kept 51820 true [] hMeets (n := 1) rfl
  exact ⟨hRequests, hEndpoint _ hGranted.2⟩

end Upnp
