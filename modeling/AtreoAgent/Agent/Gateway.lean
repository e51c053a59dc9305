import AtreoAgent.Acl.Access
import AtreoAgent.Firewall.Grants
import AtreoAgent.Tunnel.Decisions
import AtreoAgent.Tunnel.Portal

/-! The firewall beside the access list. The agent gives the firewall the port grants of
the access list at startup and after each device state it applies. A provision changes the
clients of the access list as well, and the firewall is not told. -/
namespace Tunnel

open Codec Atreolink Acl WireGuard Machine

/-- The agent and its firewall between two messages. -/
structure Gateway (H : Type) where
  agent : Agent
  manager : Firewall.Manager
  tables : Firewall.Tables H

/-- A message, and what goes wrong with the commands of the firewall while it is handled. -/
structure GatewayInput (H : Type) where
  input : Input
  faults : Firewall.Faults H

namespace Gateway

variable {H : Type}

/-- The grants of the firewall are those of the access list: a port is open to an address
whose holder is allowed it, and the clients of a member with port apps have their ports. -/
structure Tracks (g : Gateway H) : Prop where
  grants : g.manager.portGrants = Firewall.aclGrants g.agent.store
  held : ∀ p ∈ g.manager.portGrants, ∃ m ∈ g.agent.store.members, active m = true ∧
    (∃ c ∈ m.clients, c.tunnelIP = p.sourceIP ∧ c.tunnelIPv6 = p.sourceIPv6) ∧
    (∀ port ∈ p.tcp, ∃ a ∈ m.allowedApps, portOf ["tcp", "http", "https"] a = some port) ∧
    ∀ port ∈ p.udp, ∃ a ∈ m.allowedApps, portOf ["udp"] a = some port
  granted : ∀ m ∈ g.agent.store.members, active m = true → ∀ c ∈ m.clients, c.tunnelIP ≠ "" →
    ∀ a ∈ m.allowedApps, ∀ port,
      (portOf ["tcp", "http", "https"] a = some port → ∃ p ∈ g.manager.portGrants,
        p.sourceIP = c.tunnelIP ∧ p.sourceIPv6 = c.tunnelIPv6 ∧ port ∈ p.tcp) ∧
      (portOf ["udp"] a = some port → ∃ p ∈ g.manager.portGrants,
        p.sourceIP = c.tunnelIP ∧ p.sourceIPv6 = c.tunnelIPv6 ∧ port ∈ p.udp)

theorem mem_aclGrants {s : Store} {p : Firewall.PortGrant} :
    p ∈ Firewall.aclGrants s ↔
      ⟨p.sourceIP, p.sourceIPv6, p.tcp, p.udp⟩ ∈ s.portGrants := by
  rw [Firewall.aclGrants, List.mem_map]
  constructor
  · rintro ⟨q, hq, rfl⟩
    exact hq
  · intro h
    exact ⟨_, h, rfl⟩

theorem Tracks.of_grants {g : Gateway H}
    (h : g.manager.portGrants = Firewall.aclGrants g.agent.store) : g.Tracks where
  grants := h
  held p hp := by
    rw [h, mem_aclGrants] at hp
    obtain ⟨m, hm, hActive, hTCP, hUDP, _, c, hc, _, hIP, hIPv6⟩ := Store.mem_portGrants.mp hp
    refine ⟨m, hm, hActive, ⟨c, hc, hIP.symm, hIPv6.symm⟩, fun port hPort => ?_,
      fun port hPort => ?_⟩
    · exact List.mem_filterMap.mp (hTCP ▸ hPort)
    · exact List.mem_filterMap.mp (hUDP ▸ hPort)
  granted m hm hActive c hc hIP a ha port := by
    have hGrant : ¬ (m.allowedApps.filterMap (portOf ["tcp", "http", "https"]) = [] ∧
        m.allowedApps.filterMap (portOf ["udp"]) = []) →
        ⟨c.tunnelIP, c.tunnelIPv6, m.allowedApps.filterMap (portOf ["tcp", "http", "https"]),
          m.allowedApps.filterMap (portOf ["udp"])⟩ ∈ g.manager.portGrants := by
      intro hSome
      rw [h, mem_aclGrants]
      exact Store.mem_portGrants.mpr ⟨m, hm, hActive, rfl, rfl, hSome, c, hc, hIP, rfl, rfl⟩
    constructor
    · intro hPort
      have hMem : port ∈ m.allowedApps.filterMap (portOf ["tcp", "http", "https"]) :=
        List.mem_filterMap.mpr ⟨a, ha, hPort⟩
      exact ⟨_, hGrant fun hNone => List.ne_nil_of_mem hMem hNone.1, rfl, rfl, hMem⟩
    · intro hPort
      have hMem : port ∈ m.allowedApps.filterMap (portOf ["udp"]) :=
        List.mem_filterMap.mpr ⟨a, ha, hPort⟩
      exact ⟨_, hGrant fun hNone => List.ne_nil_of_mem hMem hNone.2, rfl, rfl, hMem⟩

section Steps

variable [DecidableEq H]

/-- `reconcileFirewallGrants`. An error is logged. -/
def reconcile (host : Firewall.Host H) (faults : Firewall.Faults H) (g : Gateway H) : Gateway H :=
  let (manager, world, _) :=
    g.manager.reconcileFirewallGrants host faults ⟨g.tables, []⟩ g.agent.store
  { g with manager := manager, tables := world.tables }

def step (env : Env) (host : Firewall.Host H) (g : Gateway H) (i : GatewayInput H) : Gateway H :=
  let next := { g with agent := g.agent.step env i.input }
  if (g.agent.appliedState env i.input).isSome then next.reconcile host i.faults else next

/-- A start: the rules are in place before the agent is, and the grants follow. -/
def start (host : Firewall.Host H) (faults : Firewall.Faults H) (cfg : Firewall.Config)
    (tables : Firewall.Tables H) (agent : Agent) : Gateway H :=
  let (manager, world, _) := (Firewall.NewManager cfg).apply host faults ⟨tables, []⟩
  reconcile host faults { agent := agent, manager := manager, tables := world.tables }

variable {host : Firewall.Host H} {faults : Firewall.Faults H}

/-- Whether or not the commands succeed, the grants are those of the access list. -/
theorem reconcile_portGrants (g : Gateway H) :
    (g.reconcile host faults).manager.portGrants = Firewall.aclGrants g.agent.store := by
  change (g.manager.reconcileFirewallGrants host faults ⟨g.tables, []⟩
    g.agent.store).1.portGrants = _
  rw [Firewall.Manager.reconcileFirewallGrants, Firewall.Manager.setPortGrants]
  split
  next hSame => exact Firewall.grantsEqual_iff.mp hSame
  next =>
    dsimp only
    split
    · exact (Firewall.apply_outcome host faults _ _).2.1
    · rfl

theorem step_agent (env : Env) (g : Gateway H) (i : GatewayInput H) :
    (g.step env host i).agent = g.agent.step env i.input := by
  unfold step
  dsimp only
  split <;> rfl

theorem run_agent (env : Env) (g : Gateway H) (inputs : List (GatewayInput H)) :
    (run (Gateway.step env host) g inputs).agent =
      run (Agent.step env) g.agent (inputs.map (·.input)) := by
  induction inputs generalizing g with
  | nil => rfl
  | cons i inputs ih => rw [run_cons, ih, step_agent, List.map_cons, run_cons]

/-- An applied device state reaches the firewall. -/
theorem step_portGrants {env : Env} {g : Gateway H} {i : GatewayInput H} {st : DeviceState}
    (h : g.agent.appliedState env i.input = some st) :
    (g.step env host i).manager.portGrants =
      Firewall.aclGrants (g.agent.step env i.input).store := by
  unfold step
  rw [h]
  exact reconcile_portGrants _

/-- Nothing else does. -/
theorem step_manager {env : Env} {g : Gateway H} {i : GatewayInput H}
    (h : g.agent.appliedState env i.input = none) : (g.step env host i).manager = g.manager := by
  unfold step
  rw [h]
  rfl

end Steps

end Gateway

section Rows

/-- The row opens raw ports to its clients. -/
def OpensPorts (m : MemberACLEntry) : Prop :=
  active m = true ∧ ¬ (m.allowedApps.filterMap (portOf ["tcp", "http", "https"]) = [] ∧
    m.allowedApps.filterMap (portOf ["udp"]) = [])

instance (m : MemberACLEntry) : Decidable (OpensPorts m) :=
  inferInstanceAs (Decidable (_ ∧ _))

/-- The addresses, of both families, of the clients that have one. -/
def addresses (clients : List ClientRecord) : List (String × String) :=
  clients.flatMap fun c => if c.tunnelIP = "" then [] else [(c.tunnelIP, c.tunnelIPv6)]

/-- The grants for the clients of one row. -/
def rowGrants (m : MemberACLEntry) : List PortGrant :=
  if OpensPorts m then
    (addresses m.clients).map fun address =>
      { tunnelIP := address.1
        tunnelIPv6 := address.2
        tcp := m.allowedApps.filterMap (portOf ["tcp", "http", "https"])
        udp := m.allowedApps.filterMap (portOf ["udp"]) }
  else []

theorem map_addresses {β : Type} (f : String → String → β) (clients : List ClientRecord) :
    (addresses clients).map (fun address => f address.1 address.2) =
      (clients.filter (·.tunnelIP ≠ "")).map fun c => f c.tunnelIP c.tunnelIPv6 := by
  induction clients with
  | nil => rfl
  | cons c cs ih =>
      rw [addresses, List.flatMap_cons, List.map_append, ← addresses, ih]
      by_cases hIP : c.tunnelIP = ""
      · rw [if_pos hIP, List.filter_cons_of_neg (by simp [hIP])]
        rfl
      · rw [if_neg hIP, List.filter_cons_of_pos (by simp [hIP])]
        rfl

/-- The grants are those of the rows, one after the other. -/
theorem portGrants_eq_flatMap (s : Store) : s.portGrants = s.members.flatMap rowGrants := by
  rw [Store.portGrants]
  induction s.members with
  | nil => rfl
  | cons m ms ih =>
      rw [List.flatMap_cons, ← ih, List.filter_cons]
      by_cases hActive : m.status = "" ∨ m.status = "active"
      · rw [if_pos (decide_eq_true hActive), List.flatMap_cons, rowGrants]
        congr 1
        dsimp only
        split
        next hNone => rw [if_neg fun hOpens => hOpens.2 hNone]
        next hSome =>
          rw [if_pos ⟨decide_eq_true hActive, hSome⟩]
          exact (map_addresses (fun ip ipv6 => PortGrant.mk ip ipv6 _ _) m.clients).symm
      · have hClosed : ¬ OpensPorts m := fun hOpens => hActive (of_decide_eq_true hOpens.1)
        rw [if_neg (by simpa using hActive), rowGrants, if_neg hClosed, List.nil_append]

/-- The grants of a row depend on the addresses of its clients alone. -/
theorem rowGrants_clients {m : MemberACLEntry} {clients : List ClientRecord}
    (h : OpensPorts m → addresses clients = addresses m.clients) :
    rowGrants { m with clients := clients } = rowGrants m := by
  by_cases hOpens : OpensPorts m
  · have hOther : OpensPorts { m with clients := clients } := hOpens
    rw [rowGrants, rowGrants, if_pos hOpens, if_pos hOther, h hOpens]
  · have hOther : ¬ OpensPorts { m with clients := clients } := hOpens
    rw [rowGrants, rowGrants, if_neg hOpens, if_neg hOther]

theorem flatMap_updateFirst {α β : Type} {p : α → Bool} {f : α → α} {g : α → List β}
    {as : List α} (h : ∀ a, as.find? p = some a → g (f a) = g a) :
    (updateFirst p f as).flatMap g = as.flatMap g := by
  induction as with
  | nil => rfl
  | cons a as ih =>
      rw [updateFirst]
      split
      next ha =>
        have hSame := h a (List.find?_cons_of_pos ha)
        rw [List.flatMap_cons, List.flatMap_cons, hSame]
      next ha =>
        rw [List.flatMap_cons, List.flatMap_cons, ih]
        intro b hb
        exact h b (by rw [List.find?_cons_of_neg ha, hb])

/-- A client that is added again where it is keeps the addresses. -/
theorem addresses_putClient {rec c : ClientRecord} {clients : List ClientRecord}
    (hHeld : clients.find? (·.wgPublicKey = rec.wgPublicKey) = some c)
    (hIP : c.tunnelIP = rec.tunnelIP) (hIPv6 : c.tunnelIPv6 = rec.tunnelIPv6) :
    addresses (Store.putClient rec clients) = addresses clients := by
  have hKey := List.find?_some hHeld
  have hAny : clients.any (·.wgPublicKey = rec.wgPublicKey) = true :=
    List.any_eq_true.mpr ⟨c, List.mem_of_find?_eq_some hHeld, hKey⟩
  rw [Store.putClient, if_pos hAny]
  refine flatMap_updateFirst fun first hFirst => ?_
  cases hHeld.symm.trans hFirst
  simp [ClientRecord.fillFrom, ← hIP, ← hIPv6]

variable {memberID : String} {rec : ClientRecord} {members : List MemberACLEntry}

/-- The grants stay if no open row is stripped and the row that is rewritten keeps its
addresses. -/
theorem flatMap_rewriteClients {rewrite : List ClientRecord → List ClientRecord}
    (hOthers : ∀ m ∈ members, OpensPorts m → m.memberID ≠ memberID →
      ∀ c ∈ m.clients, Store.keepsApart rec c = true)
    (hOwn : ∀ m, members.find? (·.memberID = memberID) = some m → OpensPorts m →
      addresses (rewrite m.clients) = addresses m.clients) :
    (Store.rewriteClients memberID rec rewrite members).flatMap rowGrants =
      members.flatMap rowGrants := by
  have hStripped : (members.map (Store.strip memberID rec)).flatMap rowGrants =
      members.flatMap rowGrants := by
    rw [List.flatMap_map]
    refine List.flatMap_congr fun m hm => ?_
    unfold Store.strip
    split
    · rfl
    next hOther =>
      refine rowGrants_clients fun hOpens => ?_
      rw [List.filter_eq_self.mpr (hOthers m hm hOpens hOther)]
  rw [Store.rewriteClients, ← hStripped]
  refine flatMap_updateFirst fun n hn => ?_
  rw [List.find?_map] at hn
  obtain ⟨m, hm, rfl⟩ := Option.map_eq_some_iff.mp hn
  have hSame : ((fun m : MemberACLEntry => decide (m.memberID = memberID)) ∘
      Store.strip memberID rec) = fun m => decide (m.memberID = memberID) := by
    funext m
    rw [Function.comp_apply, Store.strip_memberID]
  rw [hSame] at hm
  have hID : m.memberID = memberID := by simpa using List.find?_some hm
  rw [Store.strip_same rec hID]
  exact rowGrants_clients (hOwn m hm)

end Rows

/-- A provision that passes its checks takes neither a key nor an address from an open row
of another member. If the row of its member is open, the client is there with its
addresses, or, if the peer is refused, is not there. -/
def Input.KeepsGrants (env : Env) (agent : Agent) (input : Input) : Prop :=
  ∀ msg req allocator ip, input.event = .provision msg →
    (agent.checkProvision env input.now msg).2 = .ok req →
    agent.allocator.allocate env.subnet req.clientKey = some (allocator, ip) →
      (∀ m ∈ agent.store.members, OpensPorts m → m.memberID ≠ req.memberID →
        ∀ c ∈ m.clients, Store.keepsApart (req.record env ip) c = true) ∧
      ∀ m, agent.store.members.find? (·.memberID = req.memberID) = some m → OpensPorts m →
        if (env.server.addPeer input.exec agent.peers req.clientKey ip).isOk then
          ∃ c, m.clients.find? (·.wgPublicKey = req.clientKey) = some c ∧ c.tunnelIP = ip ∧
            c.tunnelIPv6 = env.server.tunnelIPv6 ip
        else ∀ c ∈ m.clients, c.wgPublicKey ≠ req.clientKey

variable {env : Env} {agent : Agent} {input : Input}

/-- Such an input leaves the grants of the access list as they are unless it applies a
device state. -/
theorem portGrants_step (hStore : agent.store.Coherent) (hKeeps : input.KeepsGrants env agent)
    (hApplied : agent.appliedState env input = none) :
    (agent.step env input).store.portGrants = agent.store.portGrants := by
  rw [portGrants_eq_flatMap, portGrants_eq_flatMap]
  have hChange : StoreChange env agent input (agent.step env input).store :=
    storeChange_step hStore
  generalize (agent.step env input).store = next at hChange ⊢
  cases hChange with
  | kept => rfl
  | applied msg hEvent a =>
      rw [appliedState_of_accepted hEvent a] at hApplied
      cases hApplied
  | added msg hEvent req hPasses allocator ip store peers hAllocate hAdd hPeer =>
      obtain ⟨hOthers, hOwn⟩ := hKeeps msg req allocator ip hEvent hPasses hAllocate
      obtain ⟨_, _, rfl⟩ := Store.addClient_eq_true hAdd
      refine flatMap_rewriteClients hOthers fun m hm hOpens => ?_
      have hPresent := hOwn m hm hOpens
      rw [hPeer] at hPresent
      obtain ⟨c, hHeld, hIP, hIPv6⟩ := hPresent
      exact addresses_putClient hHeld hIP hIPv6
  | withdrawn msg hEvent req hPasses allocator ip store e hAllocate hAdd hPeer =>
      obtain ⟨hOthers, hOwn⟩ := hKeeps msg req allocator ip hEvent hPasses hAllocate
      have hRows : (store.removeClient req.memberID req.clientKey).1.members = _ :=
        Store.removeClient_addClient hAdd
      rw [hRows]
      refine flatMap_rewriteClients hOthers fun m hm hOpens => ?_
      have hAbsent := hOwn m hm hOpens
      rw [hPeer] at hAbsent
      have hKept : m.clients.filter (·.wgPublicKey ≠ req.clientKey) = m.clients :=
        List.filter_eq_self.mpr fun c hc => decide_eq_true (hAbsent c hc)
      exact congrArg addresses hKept

namespace Gateway

variable {H : Type} [DecidableEq H] {host : Firewall.Host H}

/-- In every run from a fresh start in which the provisions keep the grants, the firewall
has been given those of the access list. -/
theorem firewall_tracks_acl (env : Env) (host : Firewall.Host H) (faults : Firewall.Faults H)
    (cfg : Firewall.Config) (tables : Firewall.Tables H) (pin : Option PublicKey)
    (inputs : List (GatewayInput H))
    (hInputs : Meets (Gateway.step env host) (fun g i => i.input.KeepsGrants env g.agent)
      (start host faults cfg tables (Agent.fresh env pin)) inputs) :
    (run (Gateway.step env host) (start host faults cfg tables (Agent.fresh env pin))
      inputs).Tracks := by
  have hInit : (start host faults cfg tables (Agent.fresh env pin)).agent.store.Coherent ∧
      (start host faults cfg tables (Agent.fresh env pin)).manager.portGrants =
        Firewall.aclGrants (start host faults cfg tables (Agent.fresh env pin)).agent.store :=
    ⟨rfl, reconcile_portGrants _⟩
  refine Tracks.of_grants (invariant_run (fun g : Gateway H =>
    g.agent.store.Coherent ∧ g.manager.portGrants = Firewall.aclGrants g.agent.store)
    (fun g i h hKeeps => ?_) hInit hInputs).2
  obtain ⟨hCoherent, hGrants⟩ := h
  rw [step_agent]
  refine ⟨(storeChange_step hCoherent).coherent hCoherent, ?_⟩
  cases hApplied : g.agent.appliedState env i.input with
  | some st => exact step_portGrants hApplied
  | none =>
      rw [step_manager hApplied, hGrants, Firewall.aclGrants, Firewall.aclGrants,
        portGrants_step hCoherent hKeeps hApplied]

/-- The gateway of a member with a port app, over tables without rules. -/
def porterGateway : Gateway Empty :=
  start Firewall.sampleHost Firewall.Faults.none Firewall.sampleConfig
    (fun _ => Firewall.openTable) porterAgent

/-- An input of the agent, with firewall commands that succeed. -/
def succeeding (input : Input) : GatewayInput Empty := ⟨input, Firewall.Faults.none⟩

/-- The state is applied, and the member asks to provision a key. -/
def porterRun (wgPublicKey : String) : List (GatewayInput Empty) :=
  (porterInputs ++ sampleProvisioning (sampleKey 2) "b" wgPublicKey 0).map succeeding

def provisionedGateway (wgPublicKey : String) : Gateway Empty :=
  run (Gateway.step porterEnv Firewall.sampleHost) porterGateway (porterRun wgPublicKey)

/-- The agent when the member has asked for a nonce for the key. -/
def porterChallenged (wgPublicKey : String) : Agent :=
  porterApplied.1.step porterEnv
    (.succeeding 0 (.challenge (some "00") (sampleChallenge (sampleKey 2) "b" wgPublicKey 0)))

/-- The member provisions the key of its client again, which changes no address. -/
theorem keepsGrants_porter : Input.KeepsGrants porterEnv (porterChallenged (sampleWGKey 3))
    (.succeeding 0 (.provision (sampleProvision (sampleKey 2) "b" 0))) := by
  rintro msg req allocator ip ⟨⟩ hPasses hAllocate
  have hValues : ∀ req ∈ ((porterChallenged (sampleWGKey 3)).checkProvision porterEnv 0
      (sampleProvision (sampleKey 2) "b" 0)).2.toOption,
      ∀ lease ∈ (porterChallenged (sampleWGKey 3)).allocator.allocate porterEnv.subnet req.clientKey,
        (∀ m ∈ (porterChallenged (sampleWGKey 3)).store.members, OpensPorts m →
          m.memberID ≠ req.memberID → ∀ c ∈ m.clients,
            Store.keepsApart (req.record porterEnv lease.2) c = true) ∧
        ∀ m ∈ (porterChallenged (sampleWGKey 3)).store.members.find? (·.memberID = req.memberID),
          OpensPorts m →
            if (porterEnv.server.addPeer (fun _ => true) (porterChallenged (sampleWGKey 3)).peers
              req.clientKey lease.2).isOk then
              ∃ c ∈ m.clients.find? (·.wgPublicKey = req.clientKey), c.tunnelIP = lease.2 ∧
                c.tunnelIPv6 = porterEnv.server.tunnelIPv6 lease.2
            else ∀ c ∈ m.clients, c.wgPublicKey ≠ req.clientKey := by
    rw [porterChallenged, porterApplied, beginState_porter]
    decide +kernel
  exact hValues req (Fallible.toOption_eq_some.mpr hPasses) (allocator, ip) hAllocate

theorem porter_tracked : (provisionedGateway (sampleWGKey 3)).Tracks := by
  refine firewall_tracks_acl porterEnv Firewall.sampleHost Firewall.Faults.none
    Firewall.sampleConfig (fun _ => Firewall.openTable) (some (sampleKey 1))
    (porterRun (sampleWGKey 3)) ⟨?_, ?_, ?_, trivial⟩
  · rintro msg req allocator ip ⟨⟩
  · rintro msg req allocator ip ⟨⟩
  · have hStart : porterGateway.agent = porterAgent := rfl
    beta_reduce
    rw [step_agent, step_agent]
    change Input.KeepsGrants porterEnv ((porterGateway.agent.step porterEnv
      (.succeeding 0 (.deviceState (sampleState porter)))).step porterEnv _) _
    rw [hStart, step_porter]
    exact keepsGrants_porter

/-- The access list opens the port to the address of the new client, the firewall does
not. -/
theorem provisioned_client_lacks_grant :
    (∀ p ∈ (provisionedGateway (sampleWGKey 4)).manager.portGrants, p.sourceIP ≠ "100.64.0.3") ∧
    ∃ p ∈ Firewall.aclGrants (provisionedGateway (sampleWGKey 4)).agent.store,
      p.sourceIP = "100.64.0.3" ∧ 8080 ∈ p.tcp := by
  have hValues : porterApplied.2.isApplied = true ∧
      (∀ p ∈ Firewall.aclGrants porterApplied.1.store, p.sourceIP ≠ "100.64.0.3") ∧
      ∃ p ∈ Firewall.aclGrants ((porterChallenged (sampleWGKey 4)).step porterEnv
          (.succeeding 0 (.provision (sampleProvision (sampleKey 2) "b" 0)))).store,
        p.sourceIP = "100.64.0.3" ∧ 8080 ∈ p.tcp := by
    rw [porterChallenged, porterApplied, beginState_porter]
    decide +kernel
  have hApplied : porterAgent.appliedState porterEnv
      (.succeeding 0 (.deviceState (sampleState porter))) = some porter :=
    appliedState_sample (reads_head porter []) hValues.1
  -- Only the first of the three messages reaches the firewall.
  have hManager : (provisionedGateway (sampleWGKey 4)).manager.portGrants =
      Firewall.aclGrants porterApplied.1.store := by
    have hFirst : (porterGateway.step porterEnv Firewall.sampleHost
        (succeeding (.succeeding 0 (.deviceState (sampleState porter))))).manager.portGrants =
          Firewall.aclGrants porterApplied.1.store := by
      rw [← step_porter]
      exact step_portGrants hApplied
    rw [← hFirst, provisionedGateway, porterRun, porterInputs, List.cons_append, List.map_cons,
      run_cons]
    generalize porterGateway.step porterEnv Firewall.sampleHost
      (succeeding (.succeeding 0 (.deviceState (sampleState porter)))) = g
    rw [List.nil_append, sampleProvisioning, List.map_cons, run_cons, List.map_singleton, run_cons,
      run_nil, step_manager rfl, step_manager rfl]
  have hAgent : (provisionedGateway (sampleWGKey 4)).agent =
      (porterChallenged (sampleWGKey 4)).step porterEnv
        (.succeeding 0 (.provision (sampleProvision (sampleKey 2) "b" 0))) := by
    rw [provisionedGateway, run_agent, porterChallenged, ← step_porter]
    rfl
  rw [hManager, hAgent]
  exact hValues.2

end Gateway

end Tunnel
