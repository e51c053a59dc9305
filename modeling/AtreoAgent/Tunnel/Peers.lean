import AtreoAgent.Tunnel.Cases
import AtreoAgent.WireGuard.Bindings

/-! The peer operations of an apply, one key at a time. An operation touches the peer of
its own key only, and the allocation of a key only when it is pruned. -/
namespace Tunnel

open Codec Json Atreolink WireGuard Fallible

/-- The key an operation is about. -/
def PeerOp.key : PeerOp → String
  | prune key => key
  | drop key => key
  | install key _ => key

variable {env : Env} {exec : List String → Bool}

theorem perform_peer_of_ne {op : PeerOp} {k : String} (h : op.key ≠ k) (agent : Agent) :
    (agent.perform env exec op).peers.lookup k = agent.peers.lookup k := by
  cases op with
  | prune key => exact Finmap.lookup_erase_ne (Ne.symm h)
  | drop key => exact Finmap.lookup_erase_ne (Ne.symm h)
  | install key ip =>
      rw [Agent.perform]
      split
      next peers hPeers =>
        obtain ⟨_, rfl⟩ := Server.addPeer_eq_ok hPeers
        exact Finmap.lookup_insert_of_ne _ (Ne.symm h)
      next => rfl

/-- A property of the peer of a key that the operations on the key keep holds in the end
if it holds at first or one of them establishes it. -/
theorem foldl_perform_peer {Q : Option Peer → Prop} {k : String} {ops : List PeerOp}
    (hKeep : ∀ op ∈ ops, op.key = k → ∀ agent : Agent,
      Q (agent.peers.lookup k) → Q ((agent.perform env exec op).peers.lookup k))
    {agent : Agent} (hStart : Q (agent.peers.lookup k) ∨ ∃ op ∈ ops, op.key = k ∧
      ∀ agent : Agent, Q ((agent.perform env exec op).peers.lookup k)) :
    Q ((ops.foldl (Agent.perform env exec) agent).peers.lookup k) := by
  induction ops generalizing agent with
  | nil =>
      rcases hStart with hStart | ⟨op, hOp, _⟩
      · exact hStart
      · cases hOp
  | cons op ops ih =>
      refine ih (fun op hOp => hKeep op (List.mem_cons_of_mem _ hOp)) ?_
      rcases hStart with hStart | ⟨first, hFirst, hKey, hSets⟩
      · refine Or.inl ?_
        by_cases hKey : op.key = k
        · exact hKeep op List.mem_cons_self hKey agent hStart
        · rwa [perform_peer_of_ne hKey]
      · rcases List.mem_cons.mp hFirst with rfl | hLater
        · exact Or.inl (hSets agent)
        · exact Or.inr ⟨first, hLater, hKey, hSets⟩

/-- When the commands succeed, what an operation does to the peer of a key does not depend on
the peers: it leaves that peer or sets it. -/
theorem perform_peer_cases (env : Env) (hExec : ∀ command, exec command = true) (op : PeerOp)
    (k : String) :
    (∀ agent : Agent, (agent.perform env exec op).peers.lookup k = agent.peers.lookup k) ∨
      ∃ peer, ∀ agent : Agent, (agent.perform env exec op).peers.lookup k = peer := by
  by_cases hKey : op.key = k
  · subst hKey
    cases op with
    | prune key => exact Or.inr ⟨none, fun agent => Finmap.lookup_erase key agent.peers⟩
    | drop key => exact Or.inr ⟨none, fun agent => Finmap.lookup_erase key agent.peers⟩
    | install key ip =>
        simp only [Agent.perform, Server.addPeer, hExec, PeerOp.key, Bool.not_true,
          Bool.false_eq_true, if_false]
        by_cases hWG : (!validateWGPublicKey key) = true
        · simp [hWG]
        · by_cases hIP : (!validateTunnelIPv4 ip) = true
          · simp [hWG, hIP]
          · refine Or.inr ⟨some ⟨key, ip, env.server.tunnelIPv6 ip⟩, fun agent => ?_⟩
            rw [if_neg hWG, if_neg hIP]
            exact Finmap.lookup_insert agent.peers
  · exact Or.inl fun agent => perform_peer_of_ne hKey agent

theorem foldl_perform_peer_cases (env : Env) (hExec : ∀ command, exec command = true)
    (ops : List PeerOp) (k : String) :
    (∀ agent : Agent, (ops.foldl (Agent.perform env exec) agent).peers.lookup k =
      agent.peers.lookup k) ∨
      ∃ peer, ∀ agent : Agent, (ops.foldl (Agent.perform env exec) agent).peers.lookup k = peer := by
  induction ops with
  | nil => exact Or.inl fun agent => rfl
  | cons op ops ih =>
      rcases ih with hLeaves | ⟨peer, hSets⟩
      · rcases perform_peer_cases env hExec op k with hFirst | ⟨peer, hFirst⟩
        · exact Or.inl fun agent => (hLeaves _).trans (hFirst agent)
        · exact Or.inr ⟨peer, fun agent => (hLeaves _).trans (hFirst agent)⟩
      · exact Or.inr ⟨peer, fun agent => hSets _⟩

/-- Performing the operations again changes no peer. -/
theorem foldl_perform_peers_again (hExec : ∀ command, exec command = true) (ops : List PeerOp)
    {agent after : Agent} (hPeers : after.peers = (ops.foldl (Agent.perform env exec) agent).peers) :
    (ops.foldl (Agent.perform env exec) after).peers = after.peers := by
  refine Finmap.ext_lookup fun k => ?_
  rcases foldl_perform_peer_cases env hExec ops k with hLeaves | ⟨peer, hSets⟩
  · exact hLeaves after
  · rw [hSets after, hPeers, hSets agent]

/-- Operations that prune nothing touch nothing but the peers. -/
theorem foldl_perform_eq {ops : List PeerOp} (h : ∀ k, .prune k ∉ ops) (agent : Agent) :
    ops.foldl (Agent.perform env exec) agent =
      { agent with peers := (ops.foldl (Agent.perform env exec) agent).peers } := by
  induction ops generalizing agent with
  | nil => rfl
  | cons op ops ih =>
      rw [List.foldl_cons, ih fun k hk => h k (List.mem_cons_of_mem _ hk)]
      cases op with
      | prune key => exact absurd List.mem_cons_self (h key)
      | drop key => rfl
      | install key ip =>
          rw [Agent.perform]
          split <;> rfl

theorem foldl_perform_allocated (ops : List PeerOp) (agent : Agent) (k : String) :
    (ops.foldl (Agent.perform env exec) agent).allocator.allocated.lookup k =
      if .prune k ∈ ops then none else agent.allocator.allocated.lookup k := by
  induction ops generalizing agent with
  | nil => simp
  | cons op ops ih =>
      rw [List.foldl_cons, ih]
      by_cases hLater : .prune k ∈ ops
      · rw [if_pos hLater, if_pos (List.mem_cons_of_mem _ hLater)]
      · rw [if_neg hLater]
        cases op with
        | prune key =>
            rw [Agent.perform, Allocator.lookup_release]
            by_cases hKey : k = key
            · simp [hKey]
            · simp [hKey, hLater]
        | drop key => simp [Agent.perform, hLater]
        | install key ip =>
            rw [Agent.perform]
            split <;> simp [hLater]

theorem evolves_perform (agent : Agent) (op : PeerOp) :
    agent.allocator.Evolves env.subnet (agent.perform env exec op).allocator := by
  cases op with
  | prune key => exact .single (.release key)
  | drop key => exact .refl
  | install key ip =>
      rw [Agent.perform]
      split <;> exact .refl

theorem evolves_foldl_perform (ops : List PeerOp) (agent : Agent) :
    agent.allocator.Evolves env.subnet (ops.foldl (Agent.perform env exec) agent).allocator := by
  induction ops generalizing agent with
  | nil => exact .refl
  | cons op ops ih => exact (evolves_perform agent op).trans (ih _)

theorem mem_peerOps {removed : List String} {members : List MemberACLEntry} {op : PeerOp} :
    op ∈ peerOps removed members ↔
      (∃ k ∈ removed, op = .prune k) ∨
      ∃ m ∈ members, ∃ c ∈ m.clients, c.wgPublicKey ≠ "" ∧
        ((m.status = "suspended" ∧ op = .drop c.wgPublicKey) ∨
          (m.status ≠ "suspended" ∧ c.tunnelIP ≠ "" ∧ op = .install c.wgPublicKey c.tunnelIP)) := by
  rw [peerOps, List.mem_append, List.mem_map, List.mem_flatMap]
  refine or_congr (by simp [eq_comm]) (exists_congr fun m => and_congr_right fun _ => ?_)
  unfold memberOps
  split
  next hStatus =>
    simp only [List.mem_map, List.mem_filter, decide_eq_true_eq, hStatus, true_and, not_true,
      ne_eq, false_and, or_false, and_assoc]
    exact exists_congr fun c => and_congr_right fun _ => and_congr_right fun _ => eq_comm
  next hStatus =>
    simp only [List.mem_map, List.mem_filter, decide_eq_true_eq, hStatus, false_and, not_false_eq_true,
      ne_eq, true_and, false_or, and_assoc]
    exact exists_congr fun c => and_congr_right fun _ => and_congr_right fun _ =>
      and_congr_right fun _ => eq_comm

theorem lookup_foldl_removePeer {keys : List String} {peers : Peers} {key : String} {peer : Peer}
    (h : (keys.foldl removePeer peers).lookup key = some peer) : peers.lookup key = some peer := by
  induction keys generalizing peers with
  | nil => exact h
  | cons first keys ih =>
      have hRest := ih h
      by_cases hKey : key = first
      · subst hKey
        cases (Finmap.lookup_erase _ _).symm.trans hRest
      · rwa [removePeer, Finmap.lookup_erase_ne hKey] at hRest

theorem lookup_foldl_removePeer_of_mem {keys : List String} {key : String} (h : key ∈ keys)
    (peers : Peers) : (keys.foldl removePeer peers).lookup key = none := by
  induction keys generalizing peers with
  | nil => cases h
  | cons first keys ih =>
      rcases List.mem_cons.mp h with rfl | hLater
      · cases hPeer : ((key :: keys).foldl removePeer peers).lookup key with
        | none => rfl
        | some peer => cases (Finmap.lookup_erase _ _).symm.trans (lookup_foldl_removePeer hPeer)
      · exact ih hLater _

end Tunnel
