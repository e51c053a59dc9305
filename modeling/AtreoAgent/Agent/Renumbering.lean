import AtreoAgent.Agent.StartupPeers
import AtreoAgent.Overlay.Addressing

/-! Startup after the overlay has changed. The addresses of the access list and of the state
file lie in another subnet, so every client of an active member is moved to a new address, the
first free one. What is written back for one client leaves the others alone, since nobody has
its new address yet. -/
namespace Lifecycle

open Codec Atreolink Acl Acl.Store WireGuard Tunnel

/-- A client of a member that gets a new address. -/
structure Move where
  memberID : String
  client : ClientRecord
  ip : String

namespace Move

def key (move : Move) : String := move.client.wgPublicKey

/-- The record that is written back. -/
def record (env : Env) (move : Move) : ClientRecord :=
  { wgPublicKey := move.key, tunnelIP := move.ip, tunnelIPv6 := env.server.tunnelIPv6 move.ip,
    label := move.client.label, platform := move.client.platform }

def peer (env : Env) (move : Move) : Peer :=
  ⟨move.key, move.ip, env.server.tunnelIPv6 move.ip⟩

end Move

/-- One client of `reconcilePeers` when it is moved and its peer is added. -/
def moveClient (env : Env) (agent : Agent) (move : Move) : Agent :=
  { agent with
    allocator := agent.allocator.bind move.key move.ip
    peers := agent.peers.insert move.key (move.peer env)
    store := (agent.store.addClient move.memberID (move.record env)).1 }

/-- The clients are given addresses in order. -/
def moves (ps : List (String × ClientRecord)) (ips : List String) : List Move :=
  List.zipWith (fun p ip => ⟨p.1, p.2, ip⟩) ps ips

section Fold

variable {env : Env} {exec : List String → Bool}

/-- A client whose address is not in the subnet gets the first host that is free. -/
theorem reconcileClient_of_moved {agent : Agent} (memberID : String) {c : ClientRecord}
    {taken free : List String} {ip : String} (hKey : c.wgPublicKey ≠ "")
    (hOutside : env.subnet.inSubnet c.tunnelIP = false)
    (hNew : agent.allocator.allocated.lookup c.wgPublicKey = none)
    (hHosts : env.subnet.hosts = taken ++ ip :: free) (hTaken : ∀ t ∈ taken, t ∈ agent.allocator.usedIPs)
    (hFree : ip ∉ agent.allocator.usedIPs)
    (hAdd : ∃ after, env.server.addPeer exec agent.peers c.wgPublicKey ip = .ok after) :
    reconcileClient env exec memberID agent c = some (moveClient env agent ⟨memberID, c, ip⟩) := by
  have hFirst : env.subnet.hosts.find? (· ∉ agent.allocator.usedIPs) = some ip := by
    have hNone : taken.find? (· ∉ agent.allocator.usedIPs) = none :=
      List.find?_eq_none.mpr fun t ht => by simpa using hTaken t ht
    rw [hHosts, List.find?_append, hNone, List.find?_cons_of_pos (by simpa using hFree)]
    rfl
  have hAllocate : agent.allocator.allocate env.subnet c.wgPublicKey =
      some (agent.allocator.bind c.wgPublicKey ip, ip) := by
    simp only [Allocator.allocate, Pool.allocate, hNew, hFirst, Option.map_some]
  obtain ⟨after, hAfter⟩ := hAdd
  obtain ⟨_, rfl⟩ := Server.addPeer_eq_ok hAfter
  simp only [reconcileClient, if_neg hKey, hOutside, Bool.not_false, or_true, if_true, hAllocate,
    hAfter]
  rfl

/-- The clients are moved one after the other. -/
theorem foldlM_reconcileClient {ps : List (String × ClientRecord)} {agent : Agent}
    {taken free : List String} (hKeys : ∀ p ∈ ps, p.2.wgPublicKey ≠ "")
    (hOutside : ∀ p ∈ ps, env.subnet.inSubnet p.2.tunnelIP = false)
    (hDistinct : (ps.map (·.2.wgPublicKey)).Nodup)
    (hNew : ∀ p ∈ ps, agent.allocator.allocated.lookup p.2.wgPublicKey = none)
    (hHosts : env.subnet.hosts = taken ++ free) (hTaken : ∀ t ∈ taken, t ∈ agent.allocator.usedIPs)
    (hFree : ∀ ip ∈ free, ip ∉ agent.allocator.usedIPs) (hEnough : ps.length ≤ free.length)
    (hAdd : ∀ p ∈ ps, ∀ ip ∈ env.subnet.hosts, ∀ peers, ∃ after,
      env.server.addPeer exec peers p.2.wgPublicKey ip = .ok after) :
    ps.foldlM (fun agent p => reconcileClient env exec p.1 agent p.2) agent =
      some ((moves ps free).foldl (moveClient env) agent) := by
  induction ps generalizing agent taken free with
  | nil => rfl
  | cons p ps ih =>
      cases free with
      | nil => cases hEnough
      | cons ip free =>
          obtain ⟨hFresh, hRest⟩ := List.nodup_cons.mp hDistinct
          have hMember : ip ∈ env.subnet.hosts := by
            rw [hHosts]
            exact List.mem_append_right _ List.mem_cons_self
          have hOnce : ip ∉ free := by
            have hNodup := env.subnet.nodup_hosts
            rw [hHosts] at hNodup
            exact (List.nodup_cons.mp (List.nodup_append.mp hNodup).2.1).1
          have hMoved := reconcileClient_of_moved p.1 (hKeys p List.mem_cons_self)
            (hOutside p List.mem_cons_self) (hNew p List.mem_cons_self) hHosts hTaken
            (hFree ip List.mem_cons_self) (hAdd p List.mem_cons_self ip hMember agent.peers)
          rw [List.foldlM_cons, hMoved]
          refine @ih _ (taken ++ [ip]) free (fun q hq => hKeys q (List.mem_cons_of_mem _ hq))
            (fun q hq => hOutside q (List.mem_cons_of_mem _ hq)) hRest (fun q hq => ?_)
            (by rw [hHosts, List.append_assoc, List.singleton_append]) (fun t ht => ?_)
            (fun other hOther => ?_) (Nat.le_of_succ_le_succ hEnough)
            (fun q hq => hAdd q (List.mem_cons_of_mem _ hq))
          · have hNe : q.2.wgPublicKey ≠ p.2.wgPublicKey := fun hSame =>
              hFresh (List.mem_map.mpr ⟨q, hq, hSame⟩)
            exact (Finmap.lookup_insert_of_ne _ hNe).trans (hNew q (List.mem_cons_of_mem _ hq))
          · rcases List.mem_append.mp ht with hOld | hLast
            · exact Finset.mem_insert_of_mem (hTaken t hOld)
            · rw [List.mem_singleton.mp hLast]
              exact Finset.mem_insert_self _ _
          · intro hUsed
            rcases Finset.mem_insert.mp hUsed with rfl | hOld
            · exact hOnce hOther
            · exact hFree other (List.mem_cons_of_mem _ hOther) hOld

end Fold

section Moved

variable {env : Env} {ms : List Move}

theorem foldl_moveClient_allocated (agent : Agent) :
    (ms.foldl (moveClient env) agent).allocator.allocated =
      ms.foldl (fun allocated move => allocated.insert move.key move.ip)
        agent.allocator.allocated := by
  induction ms generalizing agent with
  | nil => rfl
  | cons move ms ih =>
      rw [List.foldl_cons, ih]
      rfl

theorem foldl_moveClient_peers (agent : Agent) :
    (ms.foldl (moveClient env) agent).peers =
      ms.foldl (fun peers move => peers.insert move.key (move.peer env)) agent.peers := by
  induction ms generalizing agent with
  | nil => rfl
  | cons move ms ih =>
      rw [List.foldl_cons, ih]
      rfl

/-- What the moves make of a row. -/
def relocate (env : Env) (ms : List Move) (m : MemberACLEntry) : MemberACLEntry :=
  ms.foldl (fun m move => setClient (move.record env) m) m

/-- The rows have distinct ids and keys, the clients to be moved are there, and nobody has one
of the new addresses. -/
structure Ready (members : List MemberACLEntry) (ms : List Move) : Prop where
  ids : (members.map (·.memberID)).Nodup
  keys : ∀ m ∈ members, (m.clients.map (·.wgPublicKey)).Nodup
  owned : ∀ move ∈ ms, ∃ m ∈ members, m.memberID = move.memberID ∧
    move.key ∈ m.clients.map (·.wgPublicKey)
  sole : ∀ move ∈ ms, ∀ m ∈ members, move.key ∈ m.clients.map (·.wgPublicKey) →
    m.memberID = move.memberID
  unused : ∀ move ∈ ms, ∀ m ∈ members, ∀ c ∈ m.clients, c.tunnelIP ≠ move.ip

theorem setClient_keys (rec : ClientRecord) (m : MemberACLEntry) :
    (setClient rec m).clients.map (·.wgPublicKey) = m.clients.map (·.wgPublicKey) := by
  rw [setClient, List.map_map]
  refine List.map_congr_left fun c _ => ?_
  dsimp only [Function.comp_apply]
  split
  next hKey => exact hKey.symm
  next => rfl

variable {move : Move}

theorem Ready.next {members : List MemberACLEntry} (h : Ready members (move :: ms))
    (hIPs : ((move :: ms).map (·.ip)).Nodup) (hIP : move.ip ≠ "") :
    Ready (members.map (setClient (move.record env))) ms where
  ids := by
    rw [List.map_map]
    exact h.ids
  keys := by
    intro m hm
    obtain ⟨n, hn, rfl⟩ := List.mem_map.mp hm
    rw [setClient_keys]
    exact h.keys n hn
  owned := by
    intro other hOther
    obtain ⟨m, hm, hID, hKey⟩ := h.owned other (List.mem_cons_of_mem _ hOther)
    refine ⟨_, List.mem_map_of_mem hm, hID, ?_⟩
    rw [setClient_keys]
    exact hKey
  sole := by
    intro other hOther m hm hKey
    obtain ⟨n, hn, rfl⟩ := List.mem_map.mp hm
    rw [setClient_keys] at hKey
    exact h.sole other (List.mem_cons_of_mem _ hOther) n hn hKey
  unused := by
    intro other hOther m hm c hc
    obtain ⟨n, hn, rfl⟩ := List.mem_map.mp hm
    obtain ⟨d, hd, rfl⟩ := List.mem_map.mp hc
    have hNe : move.ip ≠ other.ip := fun hSame =>
      (List.nodup_cons.mp hIPs).1 (List.mem_map.mpr ⟨other, hOther, hSame.symm⟩)
    split
    · simpa [ClientRecord.fillFrom, Move.record, hIP] using hNe
    · exact h.unused other (List.mem_cons_of_mem _ hOther) n hn d hd

theorem Ready.apart {members : List MemberACLEntry} (h : Ready members (move :: ms)) :
    Apart move.memberID (move.record env) members := by
  intro m hm hID c hc
  have hKey : c.wgPublicKey ≠ move.key := fun hSame =>
    hID (h.sole move List.mem_cons_self m hm (hSame ▸ List.mem_map_of_mem hc))
  have hIP := h.unused move List.mem_cons_self m hm c hc
  simp [keepsApart, Move.record, hKey, hIP]

/-- Each move changes the record of its client alone. -/
theorem foldl_moveClient_members (agent : Agent) (hReady : Ready agent.store.members ms)
    (hKeys : ∀ move ∈ ms, move.key ≠ "") (hIPs : (ms.map (·.ip)).Nodup)
    (hSome : ∀ move ∈ ms, move.ip ≠ "") :
    (ms.foldl (moveClient env) agent).store.members =
      agent.store.members.map (relocate env ms) := by
  induction ms generalizing agent with
  | nil =>
      rw [List.foldl_nil]
      exact (List.map_id' _).symm
  | cons move ms ih =>
      obtain ⟨m, hm, hID, hKey⟩ := hReady.owned move List.mem_cons_self
      have hStep : (moveClient env agent move).store.members =
          agent.store.members.map (setClient (move.record env)) :=
        addClient_eq_map (hKeys move List.mem_cons_self) hReady.ids hReady.keys hReady.apart hm hID
          hKey
      have hNext : Ready (moveClient env agent move).store.members ms := by
        rw [hStep]
        exact hReady.next hIPs (hSome move List.mem_cons_self)
      rw [List.foldl_cons, ih _ hNext (fun other ho => hKeys other (List.mem_cons_of_mem _ ho))
        (List.nodup_cons.mp hIPs).2 (fun other ho => hSome other (List.mem_cons_of_mem _ ho)), hStep,
        List.map_map]
      rfl

/-- What the moves make of a record. -/
def moveRecord (env : Env) (ms : List Move) (c : ClientRecord) : ClientRecord :=
  ms.foldl (fun c move =>
    if c.wgPublicKey = move.key then ClientRecord.fillFrom (move.record env) c true else c) c

theorem relocate_eq (m : MemberACLEntry) :
    relocate env ms m = { m with clients := m.clients.map (moveRecord env ms) } := by
  induction ms generalizing m with
  | nil =>
      have hSame : m.clients.map (moveRecord env []) = m.clients := List.map_id' _
      rw [hSame]
      rfl
  | cons move ms ih =>
      rw [relocate, List.foldl_cons, ← relocate, ih, setClient, List.map_map]
      rfl

theorem moveRecord_of_notMem {c : ClientRecord} (h : c.wgPublicKey ∉ ms.map Move.key) :
    moveRecord env ms c = c := by
  induction ms with
  | nil => rfl
  | cons move ms ih =>
      rw [List.map_cons, List.mem_cons, not_or] at h
      rw [moveRecord, List.foldl_cons, if_neg h.1]
      exact ih h.2

/-- The record of a client at another address. -/
def atAddress (env : Env) (ip : String) (c : ClientRecord) : ClientRecord :=
  { c with tunnelIP := ip, tunnelIPv6 := env.server.tunnelIPv6 ip }

/-- Filling in leaves the label, the platform and the kind of endpoint as they were. -/
theorem fillFrom_of_addressed {rec prev : ClientRecord} (hIP : rec.tunnelIP ≠ "")
    (hIPv6 : rec.tunnelIPv6 ≠ "") (hKey : rec.wgPublicKey = prev.wgPublicKey)
    (hLabel : rec.label = prev.label) (hPlatform : rec.platform = prev.platform)
    (hEndpoint : rec.endpointType = "") :
    ClientRecord.fillFrom rec prev true =
      { prev with tunnelIP := rec.tunnelIP, tunnelIPv6 := rec.tunnelIPv6 } := by
  cases rec
  cases prev
  simp_all [ClientRecord.fillFrom]

/-- A client that is moved keeps what its record has besides the addresses. -/
theorem moveRecord_of_mem (hKeys : (ms.map Move.key).Nodup) (hMove : move ∈ ms)
    (hIP : move.ip ≠ "") (hIPv6 : env.server.tunnelIPv6 move.ip ≠ "") :
    moveRecord env ms move.client = atAddress env move.ip move.client := by
  induction ms with
  | nil => cases hMove
  | cons other ms ih =>
      obtain ⟨hNew, hRest⟩ := List.nodup_cons.mp hKeys
      rcases List.mem_cons.mp hMove with rfl | hLater
      · have hFilled : ClientRecord.fillFrom (move.record env) move.client true =
            atAddress env move.ip move.client :=
          fillFrom_of_addressed hIP hIPv6 rfl rfl rfl rfl
        rw [moveRecord, List.foldl_cons, if_pos (show move.client.wgPublicKey = move.key from rfl),
          hFilled]
        exact moveRecord_of_notMem hNew
      · have hOther : move.client.wgPublicKey ≠ other.key := fun hSame =>
          hNew (List.mem_map.mpr ⟨move, hLater, hSame⟩)
        rw [moveRecord, List.foldl_cons, if_neg hOther]
        exact ih hRest hLater

end Moved

/-- The agent is set up with the addresses of an overlay. -/
structure SetUp (env : Env) (overlay : Overlay) : Prop where
  networkV4 : overlay.subnetV4 = env.subnet.subnetPrefix ++ ".0/24"
  gatewayV4 : overlay.gatewayV4 = env.subnet.serverIP
  subnetV4 : env.server.subnet = overlay.subnetV4
  gatewayV6 : env.server.serverIPv6 = overlay.gatewayV6
  subnetV6 : env.server.subnetV6 = overlay.subnetV6

theorem SetUp.tunnelIPv6_ne_empty {env : Env} {idx : Nat} (h : SetUp env (Overlay.subnetAt idx))
    {ip : String} (hIP : ip ∈ env.subnet.hosts) : env.server.tunnelIPv6 ip ≠ "" := by
  obtain ⟨base, hBase, hV6⟩ := Overlay.parseIP_gatewayV6 idx
  rw [← h.gatewayV6] at hBase
  exact Server.tunnelIPv6_ne_empty hBase hV6 hIP

/-- A row whose clients are at the given addresses, if it is active. -/
def renumberRow (env : Env) (address : String → String) (m : MemberACLEntry) : MemberACLEntry :=
  if ActiveRow m then
    { m with clients := m.clients.map fun c => atAddress env (address c.wgPublicKey) c }
  else m

/-- Every row is still there with every record, the clients of the active members have their own
addresses of the subnet, and they are the peers. -/
structure Renumbered (env : Env) (members : List MemberACLEntry) (address : String → String)
    (agent : Agent) : Prop where
  rows : agent.store.members = members.map (renumberRow env address)
  subnet : ∀ p ∈ activeClients members, env.subnet.inSubnet (address p.2.wgPublicKey) = true
  dual : ∀ p ∈ activeClients members, env.server.tunnelIPv6 (address p.2.wgPublicKey) ≠ ""
  allocated : ∀ p ∈ activeClients members,
    agent.allocator.lookup p.2.wgPublicKey = address p.2.wgPublicKey
  distinct : ∀ p ∈ activeClients members, ∀ q ∈ activeClients members,
    address p.2.wgPublicKey = address q.2.wgPublicKey ∨
      env.server.tunnelIPv6 (address p.2.wgPublicKey) =
        env.server.tunnelIPv6 (address q.2.wgPublicKey) → p = q
  peers : ∀ key, agent.peers.lookup key =
    if key ∈ (activeClients members).map (·.2.wgPublicKey) then
      some ⟨key, address key, env.server.tunnelIPv6 (address key)⟩
    else none

section Moves

variable {ps : List (String × ClientRecord)} {ips : List String}

theorem moves_pairs (h : ps.length ≤ ips.length) :
    (moves ps ips).map (fun move => (move.memberID, move.client)) = ps := by
  induction ps generalizing ips with
  | nil => rfl
  | cons p ps ih =>
      cases ips with
      | nil => cases h
      | cons ip ips =>
          rw [moves, List.zipWith_cons_cons, List.map_cons, ← moves,
            ih (Nat.le_of_succ_le_succ h)]

theorem moves_ips : ((moves ps ips).map (·.ip)).Sublist ips := by
  induction ps generalizing ips with
  | nil => exact List.nil_sublist _
  | cons p ps ih =>
      cases ips with
      | nil => exact List.nil_sublist _
      | cons ip ips => exact ih.cons_cons ip

theorem moves_keys (h : ps.length ≤ ips.length) :
    (moves ps ips).map Move.key = ps.map (·.2.wgPublicKey) := by
  conv_rhs => rw [← moves_pairs h, List.map_map]
  rfl

/-- The address a client is moved to. -/
def newAddress (ms : List Move) (key : String) : String :=
  ((ms.find? (·.key = key)).map (·.ip)).getD ""

theorem newAddress_of_mem {ms : List Move} (hKeys : (ms.map Move.key).Nodup) {move : Move}
    (hMove : move ∈ ms) : newAddress ms move.key = move.ip := by
  cases hFind : ms.find? (·.key = move.key) with
  | none =>
      have hNone := List.find?_eq_none.mp hFind move hMove
      simp at hNone
  | some found =>
      have hSame : found.key = move.key := by simpa using List.find?_some hFind
      have hFound := List.inj_on_of_nodup_map hKeys (List.mem_of_find?_eq_some hFind) hMove hSame
      rw [newAddress, hFind, hFound]
      rfl

end Moves

/-- The records have distinct ids and keys and addresses of another subnet. -/
structure Outdated (other : Subnet) (members : List MemberACLEntry) : Prop where
  ids : (members.map (·.memberID)).Nodup
  keys : (clientKeys members).Nodup
  nonempty : "" ∉ clientKeys members
  few : (clientKeys members).length ≤ 253
  addresses : ∀ m ∈ members, ∀ c ∈ m.clients, other.Covers c.tunnelIP

section Outdated

variable {env : Env} {other : Subnet} {members : List MemberACLEntry}

/-- The moves at startup. -/
def startupMoves (env : Env) (members : List MemberACLEntry) : List Move :=
  moves (activeClients members) env.subnet.hosts

theorem Outdated.enough (h : Outdated other members) :
    (activeClients members).length ≤ env.subnet.hosts.length := by
  have hLength := (@activeKeys_sublist members).length_le
  have hHosts : env.subnet.hosts.length = 253 := by simp [Pool.hosts]
  have hFew := h.few
  rw [List.length_map] at hLength
  omega

variable {p : String × ClientRecord} {store : Store}

theorem Outdated.mem_startupMoves (env : Env) (h : Outdated other members) :
    p ∈ activeClients members ↔ ∃ move ∈ startupMoves env members,
      (move.memberID, move.client) = p := by
  conv_lhs => rw [← moves_pairs (@Outdated.enough env other members h), List.mem_map]
  rfl

theorem Outdated.startupKeys (h : Outdated other members) :
    (startupMoves env members).map Move.key = (activeClients members).map (·.2.wgPublicKey) :=
  moves_keys h.enough

theorem Outdated.activeKeys_nodup (h : Outdated other members) :
    ((activeClients members).map (·.2.wgPublicKey)).Nodup :=
  h.keys.sublist activeKeys_sublist

theorem Outdated.startupKeys_nodup (env : Env) (h : Outdated other members) :
    ((startupMoves env members).map Move.key).Nodup := by
  rw [h.startupKeys]
  exact h.activeKeys_nodup

theorem startup_ips_nodup : ((startupMoves env members).map (·.ip)).Nodup :=
  env.subnet.nodup_hosts.sublist moves_ips

theorem startup_ip_mem {move : Move} (h : move ∈ startupMoves env members) :
    move.ip ∈ env.subnet.hosts :=
  moves_ips.subset (List.mem_map_of_mem h)

/-- A client belongs to one row. -/
theorem Outdated.sameRow (h : Outdated other members) {m n : MemberACLEntry} (hm : m ∈ members)
    (hn : n ∈ members) {key : String} (hKey : key ∈ m.clients.map (·.wgPublicKey))
    (hKey' : key ∈ n.clients.map (·.wgPublicKey)) : m = n := by
  obtain ⟨_, hDisjoint⟩ := List.nodup_flatMap.mp h.keys
  by_contra hNe
  have hSymm : Std.Symm (Function.onFun List.Disjoint fun m : MemberACLEntry =>
      m.clients.map (·.wgPublicKey)) := ⟨fun _ _ hab => List.Disjoint.symm hab⟩
  exact hDisjoint.forall hm hn hNe hKey hKey'

theorem Outdated.ready (h : Outdated other members)
    (hOther : other.subnetPrefix ≠ env.subnet.subnetPrefix) :
    Ready members (startupMoves env members) where
  ids := h.ids
  keys := (List.nodup_flatMap.mp h.keys).1
  owned := by
    intro move hMove
    obtain ⟨m, hm, _, hID, hc⟩ := mem_activeClients.mp ((h.mem_startupMoves env).mpr ⟨move, hMove, rfl⟩)
    exact ⟨m, hm, hID.symm, List.mem_map_of_mem hc⟩
  sole := by
    intro move hMove n hn hKey
    obtain ⟨m, hm, _, hID, hc⟩ := mem_activeClients.mp ((h.mem_startupMoves env).mpr ⟨move, hMove, rfl⟩)
    rw [h.sameRow hn hm hKey (List.mem_map_of_mem hc)]
    exact hID.symm
  unused := by
    intro move hMove m hm c hc hSame
    have hHost := env.subnet.inSubnet_of_mem_hosts (startup_ip_mem hMove)
    rw [← hSame] at hHost
    exact Subnet.not_covers_of_ne hOther (h.addresses m hm c hc)
      (env.subnet.covers_of_inSubnet hHost)

/-- What the moves make of a row is the row with the new addresses. -/
theorem Outdated.relocate_eq_renumberRow (h : Outdated other members)
    (hDual : ∀ ip ∈ env.subnet.hosts, env.server.tunnelIPv6 ip ≠ "") {m : MemberACLEntry}
    (hm : m ∈ members) :
    relocate env (startupMoves env members) m =
      renumberRow env (newAddress (startupMoves env members)) m := by
  have hKeys := h.startupKeys_nodup env
  rw [relocate_eq, renumberRow]
  split
  next hActive =>
    congr 1
    refine List.map_congr_left fun c hc => ?_
    have hPair : (m.memberID, c) ∈ activeClients members :=
      mem_activeClients.mpr ⟨m, hm, hActive, rfl, hc⟩
    obtain ⟨move, hMove, hSame⟩ := (h.mem_startupMoves env).mp hPair
    obtain ⟨_, rfl⟩ := Prod.mk.inj hSame
    have hHost := startup_ip_mem hMove
    rw [moveRecord_of_mem hKeys hMove (env.subnet.ne_empty_of_mem_hosts hHost) (hDual _ hHost)]
    exact congrArg (atAddress env · move.client) (newAddress_of_mem hKeys hMove).symm
  next hInactive =>
    have hSame : m.clients.map (moveRecord env (startupMoves env members)) = m.clients := by
      refine (List.map_congr_left fun c hc => moveRecord_of_notMem ?_).trans (List.map_id' _)
      intro hKey
      obtain ⟨move, hMove, hSame⟩ := List.mem_map.mp hKey
      obtain ⟨n, hn, hActive, _, hClient⟩ :=
        mem_activeClients.mp ((h.mem_startupMoves env).mpr ⟨move, hMove, rfl⟩)
      have hRow := h.sameRow hm hn (List.mem_map.mpr ⟨c, hc, hSame.symm⟩)
        (List.mem_map_of_mem hClient)
      exact hInactive (hRow ▸ hActive)
    rw [hSame]

/-- The agent after its clients were moved. -/
def renumbered (env : Env) (store : Store) : Agent :=
  (startupMoves env store.members).foldl (moveClient env) (bootAgent env store [])

theorem Outdated.reconcilePeers_eq {exec : List String → Bool} {leases : List (String × String)}
    (h : Outdated other store.members) (hOther : other.subnetPrefix ≠ env.subnet.subnetPrefix)
    (hLeases : ∀ e ∈ leases, other.Covers e.2)
    (hAdd : ∀ p ∈ activeClients store.members, ∀ ip ∈ env.subnet.hosts, ∀ peers, ∃ after,
      env.server.addPeer exec peers p.2.wgPublicKey ip = .ok after) :
    reconcilePeers env exec (bootAgent env store leases) = some (renumbered env store) := by
  have hOutside : ∀ m ∈ store.members, ∀ c ∈ m.clients,
      env.subnet.inSubnet c.tunnelIP = false := fun m hm c hc =>
    eq_false_of_ne_true fun hIn => Subnet.not_covers_of_ne hOther
      (h.addresses m hm c hc) (env.subnet.covers_of_inSubnet hIn)
  -- Neither the file nor the access list has an address of the new subnet.
  have hBoot : { bootAgent env store leases with
      allocator := (bootAgent env store leases).allocator.markAll env.subnet
        ((bootAgent env store leases).store.members.flatMap (·.clients)) } =
          bootAgent env store [] := by
    rw [Allocator.markAll_of_outside, bootAgent,
      Allocator.load_of_outside fun e he => Subnet.not_covers_of_ne hOther (hLeases e he)]
    · rfl
    · intro c hc
      obtain ⟨m, hm, hcm⟩ := List.mem_flatMap.mp hc
      exact hOutside m hm c hcm
  have hNew : ∀ key, (bootAgent env store []).allocator.allocated.lookup key = none :=
    fun key => Finmap.lookup_empty key
  rw [reconcilePeers_eq_foldlM, hBoot]
  refine foldlM_reconcileClient (fun p hp hEmpty => ?_) (fun p hp => ?_)
    h.activeKeys_nodup (fun p _ => hNew _) (List.nil_append _).symm
    (fun t ht => by cases ht) (fun ip hIP => env.subnet.notMem_reserved hIP) h.enough hAdd
  · obtain ⟨m, hm, _, _, hc⟩ := mem_activeClients.mp hp
    exact h.nonempty (mem_clientKeys.mpr ⟨m, hm, p.2, hc, hEmpty⟩)
  · obtain ⟨m, hm, _, _, hc⟩ := mem_activeClients.mp hp
    exact hOutside m hm p.2 hc

/-- Each active client is that of a move, to a host of the subnet. -/
theorem Outdated.exists_move (env : Env) (h : Outdated other members)
    (hp : p ∈ activeClients members) :
    ∃ move ∈ startupMoves env members, p.2.wgPublicKey = move.key ∧
      newAddress (startupMoves env members) p.2.wgPublicKey = move.ip ∧
      move.ip ∈ env.subnet.hosts := by
  obtain ⟨move, hMove, rfl⟩ := (h.mem_startupMoves env).mp hp
  exact ⟨move, hMove, rfl, newAddress_of_mem (h.startupKeys_nodup env) hMove, startup_ip_mem hMove⟩

/-- Different clients are moved to different hosts. -/
theorem Outdated.newAddress_inj (env : Env) (h : Outdated other members)
    {q : String × ClientRecord} (hp : p ∈ activeClients members) (hq : q ∈ activeClients members)
    (hSame : newAddress (startupMoves env members) p.2.wgPublicKey =
      newAddress (startupMoves env members) q.2.wgPublicKey) : p = q := by
  obtain ⟨move, hMove, hKey, hAddress, _⟩ := h.exists_move env hp
  obtain ⟨move', hMove', hKey', hAddress', _⟩ := h.exists_move env hq
  rw [hAddress, hAddress'] at hSame
  have hMoves : move = move' :=
    List.inj_on_of_nodup_map startup_ips_nodup hMove hMove' hSame
  refine List.inj_on_of_nodup_map h.activeKeys_nodup hp hq ?_
  rw [hKey, hKey', hMoves]

theorem Outdated.members_renumbered (h : Outdated other store.members)
    (hOther : other.subnetPrefix ≠ env.subnet.subnetPrefix)
    (hDual : ∀ ip ∈ env.subnet.hosts, env.server.tunnelIPv6 ip ≠ "") :
    (renumbered env store).store.members =
      store.members.map (renumberRow env (newAddress (startupMoves env store.members))) := by
  have hKeys : ∀ move ∈ startupMoves env store.members, move.key ≠ "" := by
    intro move hMove hEmpty
    have hKey := activeKeys_sublist.subset (h.startupKeys ▸ List.mem_map_of_mem hMove)
    exact h.nonempty (hEmpty ▸ hKey)
  exact (foldl_moveClient_members _ (h.ready hOther) hKeys startup_ips_nodup
    fun move hMove => env.subnet.ne_empty_of_mem_hosts (startup_ip_mem hMove)).trans
      (List.map_congr_left fun m hm => h.relocate_eq_renumberRow hDual hm)

theorem Outdated.peers_renumbered (h : Outdated other store.members) (key : String) :
    (renumbered env store).peers.lookup key =
      if key ∈ (activeClients store.members).map (·.2.wgPublicKey) then
        some ⟨key, newAddress (startupMoves env store.members) key,
          env.server.tunnelIPv6 (newAddress (startupMoves env store.members) key)⟩
      else none := by
  obtain ⟨hOthers, hPeers⟩ := StringMap.lookup_foldl_insert (Move.peer env)
    (h.startupKeys_nodup env) (bootAgent env store []).peers
  rw [← foldl_moveClient_peers] at hOthers hPeers
  split
  next hMem =>
    obtain ⟨p, hp, rfl⟩ := List.mem_map.mp hMem
    obtain ⟨move, hMove, hKey, hAddress, _⟩ := h.exists_move env hp
    rw [hAddress, hKey]
    exact hPeers move hMove
  next hMem =>
    rw [← h.startupKeys] at hMem
    exact hOthers key hMem

theorem Outdated.allocated_renumbered (h : Outdated other store.members)
    (hp : p ∈ activeClients store.members) :
    (renumbered env store).allocator.lookup p.2.wgPublicKey =
      newAddress (startupMoves env store.members) p.2.wgPublicKey := by
  obtain ⟨_, hAllocated⟩ := StringMap.lookup_foldl_insert Move.ip (h.startupKeys_nodup env)
    (bootAgent env store []).allocator.allocated
  rw [← foldl_moveClient_allocated] at hAllocated
  obtain ⟨move, hMove, hKey, hAddress, _⟩ := h.exists_move env hp
  rw [hAddress, hKey, Allocator.lookup, renumbered, hAllocated move hMove]
  rfl

theorem Outdated.renumbered_spec (h : Outdated other store.members)
    (hOther : other.subnetPrefix ≠ env.subnet.subnetPrefix)
    (hDual : ∀ ip ∈ env.subnet.hosts, env.server.tunnelIPv6 ip ≠ "") :
    Renumbered env store.members (newAddress (startupMoves env store.members))
      (renumbered env store) where
  rows := h.members_renumbered hOther hDual
  subnet := by
    intro p hp
    obtain ⟨move, _, _, hAddress, hHost⟩ := h.exists_move env hp
    rw [hAddress]
    exact env.subnet.inSubnet_of_mem_hosts hHost
  dual := by
    intro p hp
    obtain ⟨move, _, _, hAddress, hHost⟩ := h.exists_move env hp
    rw [hAddress]
    exact hDual _ hHost
  allocated := fun p => h.allocated_renumbered
  distinct := by
    intro p hp q hq hSame
    apply h.newAddress_inj env hp hq
    rcases hSame with hIP | hIPv6
    · exact hIP
    · obtain ⟨move, _, _, hAddress, hHost⟩ := h.exists_move env hp
      obtain ⟨move', _, _, hAddress', hHost'⟩ := h.exists_move env hq
      rw [hAddress, hAddress'] at hIPv6 ⊢
      exact Server.tunnelIPv6_injective hHost hHost' (hDual _ hHost) hIPv6
  peers := h.peers_renumbered

end Outdated

/-- Startup under a new overlay, with at most 253 clients at addresses of another subnet and a
state file that was written there, moves every client of an active member and loses nobody. -/
theorem renumbering_loses_nobody (env : Env) (exec : List String → Bool) (store : Store)
    (leases : List (String × String)) (idx : Nat) (hOverlay : SetUp env (Overlay.subnetAt idx))
    (other : Subnet) (hOther : other.subnetPrefix ≠ env.subnet.subnetPrefix)
    (hOutdated : Outdated other store.members) (hLeases : ∀ e ∈ leases, other.Covers e.2)
    (hAdd : ∀ p ∈ activeClients store.members, ∀ ip ∈ env.subnet.hosts, ∀ peers, ∃ after,
      env.server.addPeer exec peers p.2.wgPublicKey ip = .ok after) :
    ∃ agent address, reconcilePeers env exec (bootAgent env store leases) = some agent ∧
      Renumbered env store.members address agent :=
  ⟨renumbered env store, _, hOutdated.reconcilePeers_eq hOther hLeases hAdd,
    hOutdated.renumbered_spec hOther fun _ hIP => hOverlay.tunnelIPv6_ne_empty hIP⟩

/-- An agent with the addresses of the first overlay. -/
def overlayEnv : Env :=
  { sampleEnv [] with
    server := { (sampleEnv []).server with
      serverIPv6 := "fd00:64::1", subnetV6 := "fd00:64::/64" } }

theorem setUp_overlayEnv : SetUp overlayEnv (Overlay.subnetAt 0) where
  networkV4 := by decide +kernel
  gatewayV4 := by decide +kernel
  subnetV4 := by decide +kernel
  gatewayV6 := by decide +kernel
  subnetV6 := by decide +kernel

/-- The subnet the agent had before. -/
def formerSubnet : Subnet where
  subnetPrefix := "100.64.1"
  serverIP := "100.64.1.1"
  octets := ⟨100, 64, 1, by decide +kernel⟩
  gateway := by decide +kernel

/-- The owner and a suspended member, each with a client at a former address. -/
def formerStore : Store :=
  { Store.new with
    members :=
      [{ initialEntry (sampleOwner (sampleKey 1) []) with
          clients := [{ wgPublicKey := sampleWGKey 4, tunnelIP := "100.64.1.2", label := "nas" }] },
        { initialEntry (sampleMember (sampleKey 2) [] none) with
          status := "suspended"
          clients := [{ wgPublicKey := sampleWGKey 5, tunnelIP := "100.64.1.3" }] }] }

theorem outdated_formerStore : Outdated formerSubnet formerStore.members where
  ids := by decide +kernel
  keys := by decide +kernel
  nonempty := by decide +kernel
  few := by decide +kernel
  addresses := by decide +kernel

theorem formerStore_renumbered :
    (activeClients formerStore.members).map (·.2.wgPublicKey) = [sampleWGKey 4] ∧
      ∃ agent address,
        reconcilePeers overlayEnv (fun _ => true)
          (bootAgent overlayEnv formerStore [(sampleWGKey 4, "100.64.1.2")]) = some agent ∧
        Renumbered overlayEnv formerStore.members address agent := by
  have hActive : (activeClients formerStore.members).map (·.2.wgPublicKey) = [sampleWGKey 4] := by
    decide +kernel
  refine ⟨hActive, renumbering_loses_nobody overlayEnv (fun _ => true) formerStore
    [(sampleWGKey 4, "100.64.1.2")] 0 setUp_overlayEnv formerSubnet (by decide +kernel)
    outdated_formerStore (by decide +kernel) fun p hp ip hIP peers => ?_⟩
  have hKey : p.2.wgPublicKey = sampleWGKey 4 := by
    have hMem := List.mem_map_of_mem (f := fun p : String × ClientRecord => p.2.wgPublicKey) hp
    rw [hActive] at hMem
    exact List.mem_singleton.mp hMem
  have hValid : validateWGPublicKey (sampleWGKey 4) = true := by decide +kernel
  rw [hKey]
  exact ⟨_, Server.addPeer_of_valid (fun _ => rfl) peers hValid
    (overlayEnv.subnet.validateTunnelIPv4_of_mem_hosts hIP)⟩

end Lifecycle
