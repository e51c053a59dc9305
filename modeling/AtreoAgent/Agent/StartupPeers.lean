import AtreoAgent.Acl.Clients
import AtreoAgent.Agent.Lifecycle
import AtreoAgent.Tunnel.Sample
import AtreoAgent.WireGuard.Snapshot

/-! The peers at startup. The access list is authoritative and the state file of the
allocator may be older. `reconcilePeers` marks the addresses of the access list, which
does not move an address that the file gives to another key. -/
namespace Lifecycle

open Codec Atreolink Acl WireGuard Tunnel

/-- The members whose clients get a peer at startup. -/
def ActiveRow (m : MemberACLEntry) : Prop := m.status = "" ∨ m.status = "active"

instance (m : MemberACLEntry) : Decidable (ActiveRow m) := inferInstanceAs (Decidable (_ ∨ _))

/-- The key holds the address, and so does its peer. -/
def Holds (agent : Agent) (key ip : String) : Prop :=
  agent.allocator.lookup key = ip ∧ (agent.peers.lookup key).map (·.tunnelIP) = some ip

instance (agent : Agent) (key ip : String) : Decidable (Holds agent key ip) :=
  inferInstanceAs (Decidable (_ ∧ _))

/-- The clients of the active members hold the addresses of their records, those that
were read and those that are there now, and no address is given twice. -/
structure Agrees (members : List MemberACLEntry) (agent : Agent) : Prop where
  read : ∀ m ∈ members, ActiveRow m → ∀ c ∈ m.clients, Holds agent c.wgPublicKey c.tunnelIP
  stored : ∀ m ∈ agent.store.members, ActiveRow m → ∀ c ∈ m.clients,
    Holds agent c.wgPublicKey c.tunnelIP
  injective : Assignment.Injective agent.allocator.assignment

/-- The records have distinct keys and distinct addresses of the subnet. -/
structure Tidy (net : Subnet) (members : List MemberACLEntry) : Prop where
  keys : (clientKeys members).Nodup
  nonempty : "" ∉ clientKeys members
  addresses : ((members.flatMap (·.clients)).map (·.tunnelIP)).Nodup
  subnet : ∀ m ∈ members, ∀ c ∈ m.clients, net.inSubnet c.tunnelIP = true

/-- The peer of a record whose address stays. -/
def keptPeer (env : Env) (c : ClientRecord) : Peer :=
  ⟨c.wgPublicKey, c.tunnelIP, env.server.tunnelIPv6 c.tunnelIP⟩

/-- The record that is written back for it. -/
def keptRecord (env : Env) (c : ClientRecord) : ClientRecord :=
  { wgPublicKey := c.wgPublicKey, tunnelIP := c.tunnelIP,
    tunnelIPv6 := env.server.tunnelIPv6 c.tunnelIP, label := c.label, platform := c.platform }

/-- One client of `reconcilePeers` when its address stays and its peer is added. -/
def keepClient (env : Env) (agent : Agent) (p : String × ClientRecord) : Agent :=
  { agent with
    peers := agent.peers.insert p.2.wgPublicKey (keptPeer env p.2)
    store := (agent.store.addClient p.1 (keptRecord env p.2)).1 }

/-- The clients that get a peer, with their members. -/
def activeClients (members : List MemberACLEntry) : List (String × ClientRecord) :=
  (members.filter fun m => m.status = "" ∨ m.status = "active").flatMap fun m =>
    m.clients.map fun c => (m.memberID, c)

theorem mem_activeClients {members : List MemberACLEntry} {p : String × ClientRecord} :
    p ∈ activeClients members ↔
      ∃ m ∈ members, ActiveRow m ∧ p.1 = m.memberID ∧ p.2 ∈ m.clients := by
  simp only [activeClients, List.mem_flatMap, List.mem_filter, decide_eq_true_eq, List.mem_map,
    ActiveRow, and_assoc]
  refine exists_congr fun m => and_congr_right fun _ => and_congr_right fun _ => ?_
  constructor
  · rintro ⟨c, hc, rfl⟩
    exact ⟨rfl, hc⟩
  · rintro ⟨hID, hc⟩
    exact ⟨p.2, hc, by rw [← hID]⟩

variable {env : Env} {exec : List String → Bool} {members : List MemberACLEntry}

theorem reconcileClient_of_kept {memberID : String} {c : ClientRecord} (hKey : c.wgPublicKey ≠ "")
    (hSubnet : env.subnet.inSubnet c.tunnelIP = true)
    (hAdd : ∀ peers, ∃ after, env.server.addPeer exec peers c.wgPublicKey c.tunnelIP = .ok after)
    (agent : Agent) :
    reconcileClient env exec memberID agent c = some (keepClient env agent (memberID, c)) := by
  obtain ⟨after, hAfter⟩ := hAdd agent.peers
  have hSome : c.tunnelIP ≠ "" :=
    env.subnet.ne_empty_of_mem_hosts (env.subnet.mem_hosts_of_inSubnet hSubnet)
  obtain ⟨_, rfl⟩ := Server.addPeer_eq_ok hAfter
  simp only [reconcileClient, hKey, hSome, hSubnet, if_false, or_self, Bool.not_true,
    Bool.false_eq_true, hAfter]
  rfl

/-- The clients of the active members are looked at one after the other. -/
theorem reconcilePeers_eq_foldlM (agent : Agent) :
    reconcilePeers env exec agent =
      (activeClients agent.store.members).foldlM
        (fun agent p => reconcileClient env exec p.1 agent p.2)
        { agent with
          allocator := agent.allocator.markAll env.subnet
            (agent.store.members.flatMap (·.clients)) } := by
  rw [activeClients, Fallible.foldlM_flatMap]
  simp only [List.foldlM_map]
  rfl

/-- Where every address stays, each client is kept. -/
theorem reconcilePeers_of_tidy (agent : Agent) (hTidy : Tidy env.subnet agent.store.members)
    (hAdd : ∀ m ∈ agent.store.members, ActiveRow m → ∀ c ∈ m.clients, ∀ peers, ∃ after,
      env.server.addPeer exec peers c.wgPublicKey c.tunnelIP = .ok after) :
    reconcilePeers env exec agent =
      some ((activeClients agent.store.members).foldl (keepClient env)
        { agent with
          allocator := agent.allocator.markAll env.subnet
            (agent.store.members.flatMap (·.clients)) }) := by
  rw [reconcilePeers_eq_foldlM]
  refine Fallible.foldlM_eq_some (fun p hp current => ?_) _
  obtain ⟨m, hm, hActive, _, hc⟩ := mem_activeClients.mp hp
  refine reconcileClient_of_kept (fun hEmpty => hTidy.nonempty ?_) (hTidy.subnet m hm p.2 hc)
    (hAdd m hm hActive p.2 hc) current
  exact mem_clientKeys.mpr ⟨m, hm, p.2, hc, hEmpty⟩

section Kept

variable (ps : List (String × ClientRecord)) (agent : Agent)

theorem foldl_keepClient_allocator :
    (ps.foldl (keepClient env) agent).allocator = agent.allocator := by
  induction ps generalizing agent with
  | nil => rfl
  | cons p ps ih => rw [List.foldl_cons, ih, keepClient]

theorem foldl_keepClient_peers :
    (ps.foldl (keepClient env) agent).peers =
      ps.foldl (fun peers p => peers.insert p.2.wgPublicKey (keptPeer env p.2)) agent.peers := by
  induction ps generalizing agent with
  | nil => rfl
  | cons p ps ih =>
      rw [List.foldl_cons, ih]
      rfl

/-- A record afterwards was there in a row of the same status, or agrees with a client
that was kept. -/
theorem mem_foldl_keepClient (hAddress : ∀ p ∈ ps, p.2.tunnelIP ≠ "") {n : MemberACLEntry}
    (hn : n ∈ (ps.foldl (keepClient env) agent).store.members) {d : ClientRecord}
    (hd : d ∈ n.clients) :
    (∃ m ∈ agent.store.members, n.status = m.status ∧ d ∈ m.clients) ∨
      ∃ p ∈ ps, d.wgPublicKey = p.2.wgPublicKey ∧ d.tunnelIP = p.2.tunnelIP := by
  induction ps generalizing agent with
  | nil => exact Or.inl ⟨n, hn, rfl, hd⟩
  | cons p ps ih =>
      rcases ih (keepClient env agent p) (fun q hq => hAddress q (List.mem_cons_of_mem _ hq)) hn with
        ⟨m, hm, hStatus, hdm⟩ | ⟨q, hq, hSame⟩
      · have hIP : (keptRecord env p.2).tunnelIP ≠ "" := hAddress p List.mem_cons_self
        obtain ⟨m₀, hm₀, hStatus₀, hFrom⟩ := Store.mem_addClient hIP hm hdm
        rcases hFrom with hOld | hSame
        · exact Or.inl ⟨m₀, hm₀, hStatus.trans hStatus₀, hOld⟩
        · exact Or.inr ⟨p, List.mem_cons_self, hSame⟩
      · exact Or.inr ⟨q, List.mem_cons_of_mem _ hq, hSame⟩

end Kept

theorem activeClients_keys :
    (activeClients members).map (·.2.wgPublicKey) =
      clientKeys (members.filter fun m => m.status = "" ∨ m.status = "active") := by
  simp [activeClients, clientKeys, List.map_flatMap, Function.comp_def]

theorem activeKeys_sublist :
    ((activeClients members).map (·.2.wgPublicKey)).Sublist (clientKeys members) := by
  rw [activeClients_keys]
  exact List.filter_sublist.flatMap _

theorem Tidy.activeClients_nodup (h : Tidy env.subnet members) :
    ((activeClients members).map (·.2.wgPublicKey)).Nodup :=
  h.keys.sublist activeKeys_sublist

/-- An agent at startup, before its peers are reconciled. -/
def bootAgent (env : Env) (store : Store) (leases : List (String × String)) : Agent :=
  { store := store, allocator := (Allocator.new env.subnet).load env.subnet leases, peers := ∅
    nonces := ∅, live := none }

theorem holds_iff {agent : Agent} {key ip : String} (hIP : ip ≠ "")
    (hPeer : (agent.peers.lookup key).map (·.tunnelIP) = some ip) :
    Holds agent key ip ↔ agent.allocator.allocated.lookup key = some ip := by
  rw [Holds, and_iff_left hPeer, Allocator.lookup]
  cases agent.allocator.allocated.lookup key with
  | none => simp [hIP.symm]
  | some held => simp

/-- The agent after its peers are reconciled, when every address stays. -/
def reconciled (env : Env) (store : Store) (leases : List (String × String)) : Agent :=
  (activeClients store.members).foldl (keepClient env)
    { bootAgent env store leases with
      allocator := (bootAgent env store leases).allocator.markAll env.subnet
        (store.members.flatMap (·.clients)) }

section Reconciled

variable {store : Store} {leases : List (String × String)} {m : MemberACLEntry} {c : ClientRecord}

theorem reconciled_allocator : (reconciled env store leases).allocator =
    ((Allocator.new env.subnet).load env.subnet leases).markAll env.subnet
      (store.members.flatMap (·.clients)) :=
  foldl_keepClient_allocator _ _

theorem Tidy.clients (h : Tidy env.subnet store.members) :
    (∀ c ∈ store.members.flatMap (·.clients), c.wgPublicKey ≠ "") ∧
      (∀ c ∈ store.members.flatMap (·.clients), env.subnet.inSubnet c.tunnelIP = true) ∧
      ((store.members.flatMap (·.clients)).map (·.wgPublicKey)).Nodup := by
  refine ⟨fun c hc hEmpty => ?_, fun c hc => ?_, ?_⟩
  · obtain ⟨m, hm, hcm⟩ := List.mem_flatMap.mp hc
    exact h.nonempty (mem_clientKeys.mpr ⟨m, hm, c, hcm, hEmpty⟩)
  · obtain ⟨m, hm, hcm⟩ := List.mem_flatMap.mp hc
    exact h.subnet m hm c hcm
  · rw [List.map_flatMap]
    exact h.keys

theorem reconciled_injective (hTidy : Tidy env.subnet store.members)
    (hLeases : (leases.map (·.1)).Nodup) :
    Assignment.Injective (reconciled env store leases).allocator.assignment := by
  rw [reconciled_allocator]
  obtain ⟨hKeys, hSubnet, _⟩ := hTidy.clients
  exact (Allocator.separate_markAll hKeys hSubnet
    (Allocator.separate_load_new env.subnet hLeases).1).injective

/-- What `Holds` amounts to for a client of an active member. -/
theorem reconciled_holds_iff (hTidy : Tidy env.subnet store.members)
    (hLeases : (leases.map (·.1)).Nodup) (hm : m ∈ store.members) (hActive : ActiveRow m)
    (hc : c ∈ m.clients) :
    Holds (reconciled env store leases) c.wgPublicKey c.tunnelIP ↔
      ∀ key, (bootAgent env store leases).allocator.allocated.lookup key = some c.tunnelIP →
        key = c.wgPublicKey := by
  have hIP : c.tunnelIP ≠ "" :=
    env.subnet.ne_empty_of_mem_hosts (env.subnet.mem_hosts_of_inSubnet (hTidy.subnet m hm c hc))
  have hPeer : (reconciled env store leases).peers.lookup c.wgPublicKey = some (keptPeer env c) := by
    rw [reconciled, foldl_keepClient_peers]
    exact (StringMap.lookup_foldl_insert (fun p : String × ClientRecord => keptPeer env p.2)
      hTidy.activeClients_nodup _).2 (m.memberID, c)
      (mem_activeClients.mpr ⟨m, hm, hActive, rfl, hc⟩)
  obtain ⟨hKeys, hSubnet, hDistinct⟩ := hTidy.clients
  obtain ⟨hSeparate, hAccounted⟩ := Allocator.separate_load_new env.subnet hLeases
  rw [holds_iff hIP (by rw [hPeer]; rfl), reconciled_allocator]
  exact Allocator.lookup_markAll_iff hSeparate hAccounted hKeys hSubnet hDistinct hTidy.addresses
    (List.mem_flatMap.mpr ⟨m, hm, hc⟩)

/-- A record of an active row afterwards agrees with one that was read from such a row. -/
theorem reconciled_stored (hTidy : Tidy env.subnet store.members) {n : MemberACLEntry}
    (hn : n ∈ (reconciled env store leases).store.members) (hActive : ActiveRow n)
    {d : ClientRecord} (hd : d ∈ n.clients) :
    ∃ m ∈ store.members, ActiveRow m ∧
      ∃ c ∈ m.clients, d.wgPublicKey = c.wgPublicKey ∧ d.tunnelIP = c.tunnelIP := by
  have hAddress : ∀ p ∈ activeClients store.members, p.2.tunnelIP ≠ "" := by
    intro p hp
    obtain ⟨m, hm, _, _, hc⟩ := mem_activeClients.mp hp
    exact env.subnet.ne_empty_of_mem_hosts
      (env.subnet.mem_hosts_of_inSubnet (hTidy.subnet m hm p.2 hc))
  rcases mem_foldl_keepClient _ _ hAddress hn hd with ⟨m, hm, hStatus, hOld⟩ | ⟨p, hp, hSame⟩
  · refine ⟨m, hm, ?_, d, hOld, rfl, rfl⟩
    rw [ActiveRow, ← hStatus]
    exact hActive
  · obtain ⟨m, hm, hRow, _, hc⟩ := mem_activeClients.mp hp
    exact ⟨m, hm, hRow, p.2, hc, hSame⟩

end Reconciled

/-- For every access list with distinct keys and distinct addresses of the subnet and every
state file: startup makes the allocator agree with the access list exactly if the file
gives no address of an active client to another key. -/
theorem startup_agrees_iff (env : Env) (exec : List String → Bool) (store : Store)
    (leases : List (String × String)) (hLeases : (leases.map (·.1)).Nodup)
    (hTidy : Tidy env.subnet store.members)
    (hAdd : ∀ m ∈ store.members, ActiveRow m → ∀ c ∈ m.clients, ∀ peers, ∃ after,
      env.server.addPeer exec peers c.wgPublicKey c.tunnelIP = .ok after) :
    ∃ agent, reconcilePeers env exec (bootAgent env store leases) = some agent ∧
      (Agrees store.members agent ↔
        ∀ m ∈ store.members, ActiveRow m → ∀ c ∈ m.clients, ∀ key,
          (bootAgent env store leases).allocator.allocated.lookup key = some c.tunnelIP →
            key = c.wgPublicKey) := by
  refine ⟨reconciled env store leases,
    reconcilePeers_of_tidy (bootAgent env store leases) hTidy hAdd, ?_⟩
  constructor
  · intro hAgrees m hm hActive c hc
    exact (reconciled_holds_iff hTidy hLeases hm hActive hc).mp (hAgrees.read m hm hActive c hc)
  · intro hFree
    have hRead : ∀ m ∈ store.members, ActiveRow m → ∀ c ∈ m.clients,
        Holds (reconciled env store leases) c.wgPublicKey c.tunnelIP := fun m hm hActive c hc =>
      (reconciled_holds_iff hTidy hLeases hm hActive hc).mpr (hFree m hm hActive c hc)
    refine ⟨hRead, fun n hn hActive d hd => ?_, reconciled_injective hTidy hLeases⟩
    obtain ⟨m, hm, hRow, c, hc, hKey, hIP⟩ := reconciled_stored hTidy hn hActive hd
    rw [hKey, hIP]
    exact hRead m hm hRow c hc

/-- The owner with a client that has the first address. -/
def clientStore : Store :=
  { Store.new with
    members := [{ initialEntry (sampleOwner (sampleKey 1) []) with
      clients := [{ wgPublicKey := sampleWGKey 4, tunnelIP := "100.64.0.2" }] }] }

theorem tidy_clientStore : Tidy (sampleEnv []).subnet clientStore.members where
  keys := by decide +kernel
  nonempty := by decide +kernel
  addresses := by decide +kernel
  subnet := by decide +kernel

theorem clientStore_agrees :
    ∃ agent, reconcilePeers (sampleEnv []) (fun _ => true) (bootAgent (sampleEnv []) clientStore []) =
      some agent ∧ Agrees clientStore.members agent := by
  have hAdd : ∀ m ∈ clientStore.members, ActiveRow m → ∀ c ∈ m.clients, ∀ peers, ∃ after,
      (sampleEnv []).server.addPeer (fun _ => true) peers c.wgPublicKey c.tunnelIP = .ok after := by
    intro m hm _ c hc peers
    have hRow := (List.mem_singleton.mp hm) ▸ hc
    cases List.mem_singleton.mp hRow
    exact ⟨_, Server.addPeer_of_valid (fun _ => rfl) peers (by decide +kernel) (by decide +kernel)⟩
  obtain ⟨agent, hAgent, hIff⟩ := startup_agrees_iff (sampleEnv []) (fun _ => true) clientStore []
    List.nodup_nil tidy_clientStore hAdd
  exact ⟨agent, hAgent, hIff.mpr fun m _ _ c _ key hKey => by simp [bootAgent, Pool.load,
    Pool.fresh] at hKey⟩

/-- A key that held the address when the file was written holds it again; the client of
the access list gets the peer and no allocation. -/
theorem stale_file_keeps_address :
    ((Allocator.new (sampleEnv []).subnet).allocate (sampleEnv []).subnet (sampleWGKey 3)).map (·.2) =
      some "100.64.0.2" ∧
    (reconcilePeers (sampleEnv []) (fun _ => true)
      (bootAgent (sampleEnv []) clientStore [(sampleWGKey 3, "100.64.0.2")])).map
        (fun agent => (agent.allocator.lookup (sampleWGKey 4),
          (agent.peers.lookup (sampleWGKey 4)).map (·.tunnelIP))) = some ("", some "100.64.0.2") := by
  decide +kernel

end Lifecycle
