import AtreoAgent.Acl.Clients
import AtreoAgent.Tunnel.Binding
import AtreoAgent.Tunnel.Peers
import AtreoAgent.Tunnel.Rows

/-! The addresses and peers of an applied device state: the records of its rows have the
addresses that were bound, the keys that left the access list are pruned, suspended
members lose their peers and the clients of the others get one. -/
namespace Tunnel

open Codec Json Atreolink WireGuard Fallible

variable {env : Env} {now : Time} {agent : Agent} {msg : TunnelMessage}

/-- No key is registered for two members. -/
def KeysApart (st : DeviceState) : Prop :=
  st.members.Pairwise fun dm dn => ∀ key ∈ memberKeys dm, key ∈ memberKeys dn → key = ""

instance (st : DeviceState) : Decidable (KeysApart st) :=
  inferInstanceAs (Decidable (List.Pairwise _ _))

namespace Checked

variable (c : Checked env now agent msg)

theorem keeps_binding : Keeps agent.allocator c.binding.1 := by
  rw [c.binding_eq.1]
  exact keeps_walk env.subnet c.leases agent.allocator _

theorem evolves_binding : agent.allocator.Evolves env.subnet c.binding.1 := by
  rw [c.binding_eq.1]
  exact evolves_walk env.subnet c.leases agent.allocator _

theorem sound_binding (h : agent.allocator.Sound env.subnet) : c.binding.1.Sound env.subnet :=
  c.evolves_binding.sound h

theorem keyless_binding (h : agent.allocator.allocated.lookup "" = none) :
    c.binding.1.allocated.lookup "" = none := by
  rw [c.binding_eq.1]
  exact keyless_walk env.subnet c.leases h _

end Checked

namespace Accepted

variable (a : Accepted env now agent msg)

/-- A record of a new row holds the address that was bound to its key. -/
theorem record_lookup {n : MemberACLEntry} (hn : n ∈ a.members) {d : ClientRecord}
    (hd : d ∈ n.clients) : (d.wgPublicKey = "" → d.tunnelIP = "") ∧
      (d.wgPublicKey ≠ "" → a.binding.1.allocated.lookup d.wgPublicKey = some d.tunnelIP) := by
  obtain ⟨m, hm, rfl⟩ := List.mem_map.mp hn
  obtain ⟨c, hc, rfl⟩ := List.mem_map.mp hd
  have hHolds := holds_bindMembers (fun m hm c hc => (a.entries_blank m hm c hc).1) a.binds m hm c hc
  have hSame : (deriveClientIPv6 env.server c).wgPublicKey = c.wgPublicKey ∧
      (deriveClientIPv6 env.server c).tunnelIP = c.tunnelIP := by
    unfold deriveClientIPv6
    split <;> exact ⟨rfl, rfl⟩
  rw [hSame.1, hSame.2]
  exact hHolds

/-- The records of the new rows have the addresses that were bound. -/
theorem records_bound (hSound : a.binding.1.Sound env.subnet) :
    ∀ n ∈ a.members, ∀ d ∈ n.clients, (d.wgPublicKey = "" → d.tunnelIP = "") ∧
      (d.wgPublicKey ≠ "" → a.binding.1.allocated.lookup d.wgPublicKey = some d.tunnelIP ∧
        d.tunnelIPv6 = env.server.tunnelIPv6 d.tunnelIP) := by
  intro n hn d hd
  obtain ⟨hKeyless, hHeld⟩ := a.record_lookup hn hd
  refine ⟨hKeyless, fun hNe => ⟨hHeld hNe, ?_⟩⟩
  have hSome : d.tunnelIP ≠ "" := hSound.ne_empty (hHeld hNe)
  obtain ⟨m, hm, rfl⟩ := List.mem_map.mp hn
  obtain ⟨c, hc, rfl⟩ := List.mem_map.mp hd
  unfold deriveClientIPv6 at hSome ⊢
  split at hSome
  next hNone => exact absurd hNone hSome
  next hAddress => rw [if_neg hAddress]

theorem prune_mem_iff (key : String) : .prune key ∈ a.application.ops ↔
    key ≠ "" ∧ key ∈ Acl.clientKeys agent.store.members ∧ key ∉ Acl.clientKeys a.members := by
  have hRemoved := (Acl.Store.reconcile_eq_ok a.reconciles).2.2
  have hOps : .prune key ∈ a.application.ops ↔ key ∈ a.removed.clientKeys := by
    rw [application, mem_peerOps]
    simp
  rw [hOps, hRemoved]
  exact Acl.mem_removedClientKeys

theorem result_allocated (exec : List String → Bool) (key : String) :
    (a.result exec).allocator.allocated.lookup key =
      if .prune key ∈ a.application.ops then none else a.binding.1.allocated.lookup key :=
  foldl_perform_allocated a.application.ops a.replaced key

variable {key : String} {m : MemberACLEntry} {c : ClientRecord}

theorem result_allocated_of_listed (exec : List String → Bool)
    (h : key ∈ Acl.clientKeys a.members) :
    (a.result exec).allocator.allocated.lookup key = a.binding.1.allocated.lookup key := by
  rw [a.result_allocated, if_neg fun hPrune => ((a.prune_mem_iff key).mp hPrune).2.2 h]

/-- Every key of an applied device state holds an address. -/
theorem allocated_of_registered (hSound : agent.allocator.Sound env.subnet)
    (exec : List String → Bool) (hKey : key ∈ registeredKeys a.st) (hNe : key ≠ "") :
    key ∈ (a.result exec).allocator.allocated := by
  rw [← a.clientKeys_members] at hKey
  obtain ⟨n, hn, d, hd, rfl⟩ := Acl.mem_clientKeys.mp hKey
  have hBound := (a.records_bound (a.sound_binding hSound) n hn d hd).2 hNe
  refine Finmap.mem_iff.mpr ⟨d.tunnelIP, ?_⟩
  rw [a.result_allocated_of_listed exec hKey]
  exact hBound.1

theorem result_members (exec : List String → Bool) : (a.result exec).store.members = a.members := by
  rw [a.result_store]
  exact a.store_members.1

/-- A key that is in no new row has no peer after the apply. -/
theorem no_peer_of_unlisted
    (hOld : ∀ key peer, agent.peers.lookup key = some peer →
      key ≠ "" ∧ key ∈ Acl.clientKeys agent.store.members) (exec : List String → Bool)
    (hGone : key ∉ Acl.clientKeys a.members) : (a.result exec).peers.lookup key = none := by
  change (a.application.ops.foldl (Agent.perform env exec) a.replaced).peers.lookup key = none
  refine foldl_perform_peer (Q := fun peer => peer = none) ?_ ?_
  · intro op hOp hKey current hNone
    rcases mem_peerOps.mp hOp with ⟨k, _, rfl⟩ | ⟨m, hm, c, hc, _, ⟨_, rfl⟩ | ⟨_, _, rfl⟩⟩
    · exact hKey ▸ Finmap.lookup_erase _ _
    · exact hKey ▸ Finmap.lookup_erase _ _
    · exact absurd (Acl.mem_clientKeys.mpr ⟨m, hm, c, hc, hKey⟩) hGone
  · cases hPeer : a.replaced.peers.lookup key with
    | none => exact Or.inl rfl
    | some peer =>
        -- Its key was listed before, so it is pruned.
        obtain ⟨hNe, hListed⟩ := hOld key peer hPeer
        exact Or.inr ⟨.prune key, (a.prune_mem_iff key).mpr ⟨hNe, hListed, hGone⟩, rfl,
          fun current => Finmap.lookup_erase _ _⟩

/-- Rows of different members share no key. -/
theorem rows_apart (h : KeysApart a.st) {n : MemberACLEntry} (hm : m ∈ a.members)
    (hn : n ∈ a.members) (hNe : m ≠ n) {d : ClientRecord} (hc : c ∈ m.clients)
    (hd : d ∈ n.clients) (hSame : c.wgPublicKey = d.wgPublicKey) : c.wgPublicKey = "" := by
  have hPairs : (a.members.map fun m => m.clients.map (·.wgPublicKey)).Pairwise
      fun ks ls => ∀ key ∈ ks, key ∈ ls → key = "" := by
    rw [a.members_keys, List.pairwise_map]
    exact h
  rw [List.pairwise_map] at hPairs
  have hSymm : Std.Symm fun m n : MemberACLEntry => ∀ key ∈ m.clients.map (·.wgPublicKey),
      key ∈ n.clients.map (·.wgPublicKey) → key = "" := ⟨fun _ _ hmn key hk hl => hmn key hl hk⟩
  exact hPairs.forall hm hn hNe _ (List.mem_map_of_mem hc) (hSame ▸ List.mem_map_of_mem hd)

/-- The keys of a suspended member have no peer after the apply. -/
theorem no_peer_of_suspended (hKeys : KeysApart a.st) (exec : List String → Bool)
    (hm : m ∈ a.members) (hStatus : m.status = "suspended") (hc : c ∈ m.clients)
    (hNe : c.wgPublicKey ≠ "") : (a.result exec).peers.lookup c.wgPublicKey = none := by
  change (a.application.ops.foldl (Agent.perform env exec) a.replaced).peers.lookup _ = none
  refine foldl_perform_peer (Q := fun peer => peer = none) ?_ (Or.inr ⟨.drop c.wgPublicKey, ?_, rfl,
    fun current => Finmap.lookup_erase _ _⟩)
  · intro op hOp hKey current hNone
    rcases mem_peerOps.mp hOp with ⟨k, _, rfl⟩ | ⟨n, hn, d, hd, _, ⟨_, rfl⟩ | ⟨hActive, _, rfl⟩⟩
    · exact hKey ▸ Finmap.lookup_erase _ _
    · exact hKey ▸ Finmap.lookup_erase _ _
    · -- An active member with this key would share it with the suspended one.
      have hOther : m ≠ n := fun hSame => hActive (hSame ▸ hStatus)
      exact absurd (a.rows_apart hKeys hm hn hOther hc hd hKey.symm) hNe
  · exact mem_peerOps.mpr (Or.inr ⟨m, hm, c, hc, hNe, Or.inl ⟨hStatus, rfl⟩⟩)

/-- The peer operations of an apply install the clients of the members that are not
suspended, whatever they start from. -/
theorem installed_of_active (hSound : a.binding.1.Sound env.subnet) (hKeys : KeysApart a.st)
    {exec : List String → Bool} (hExec : ∀ command, exec command = true) (start : Agent)
    (hm : m ∈ a.members) (hStatus : m.status ≠ "suspended") (hc : c ∈ m.clients)
    (hValid : validateWGPublicKey c.wgPublicKey = true) :
    ((a.application.ops.foldl (Agent.perform env exec) start).peers.lookup c.wgPublicKey).isSome =
      true := by
  have hNe : c.wgPublicKey ≠ "" := fun hEmpty => by
    simp [hEmpty, validateWGPublicKey] at hValid
  have hInstall : ∀ n ∈ a.members, ∀ d ∈ n.clients, d.wgPublicKey = c.wgPublicKey →
      ∀ current : Agent, ((current.perform env exec
        (.install d.wgPublicKey d.tunnelIP)).peers.lookup c.wgPublicKey).isSome = true := by
    intro n hn d hd hSame current
    have hHost := hSound.host _ _ ((a.records_bound hSound n hn d hd).2 (hSame ▸ hNe)).1
    rw [Agent.perform, Server.addPeer_of_valid hExec _ (hSame ▸ hValid)
      (env.subnet.validateTunnelIPv4_of_mem_hosts hHost), hSame, Finmap.lookup_insert]
    rfl
  have hAddress : c.tunnelIP ≠ "" := hSound.ne_empty ((a.records_bound hSound m hm c hc).2 hNe).1
  refine foldl_perform_peer (Q := fun peer => peer.isSome = true) ?_
    (Or.inr ⟨.install c.wgPublicKey c.tunnelIP, ?_, rfl, hInstall m hm c hc rfl⟩)
  · intro op hOp hKey current hCurrent
    rcases mem_peerOps.mp hOp with ⟨k, _, rfl⟩ | ⟨n, hn, d, hd, _, ⟨hDropped, rfl⟩ | ⟨_, _, rfl⟩⟩
    · -- A key of a new row is not pruned.
      have hListed := Acl.mem_clientKeys.mpr ⟨m, hm, c, hc, rfl⟩
      exact absurd hListed ((a.prune_mem_iff c.wgPublicKey).mp (hKey ▸ hOp)).2.2
    · have hOther : m ≠ n := fun hSame => hStatus (hSame ▸ hDropped)
      exact absurd (a.rows_apart hKeys hm hn hOther hc hd hKey.symm) hNe
    · exact hInstall n hn d hd hKey current
  · exact mem_peerOps.mpr (Or.inr ⟨m, hm, c, hc, hNe, Or.inr ⟨hStatus, hAddress, rfl⟩⟩)

end Accepted

end Tunnel
