import AtreoAgent.Acl.Clients
import AtreoAgent.Tunnel.Nonces
import AtreoAgent.WireGuard.Bindings

/-! What a failed provision leaves behind. The steps are undone by removing the client record
and releasing the address. That restores what was there before only for a key which had
neither, and which no other member held. A failure to sign undoes nothing. -/
namespace Tunnel

open Codec Atreolink WireGuard Acl Acl.Store

/-- Members, allocations and peers are as before. -/
structure Unchanged (before after : Agent) : Prop where
  members : after.store.members = before.store.members
  allocator : after.allocator = before.allocator
  peers : after.peers = before.peers

section

variable (env : Env) (exec : List String → Bool) (agent : Agent) (req : ProvisionRequest)
  (ip : String)

/-- No row is there for the client. -/
def NoMember : Prop :=
  req.clientKey = "" ∨ ∀ m ∈ agent.store.members, m.memberID ≠ req.memberID

/-- What the agent has to be like for a provision to leave no trace if it fails: when there is
no member for the client, when the peer is refused, and when the answer cannot be signed. -/
structure Undoable : Prop where
  noMember : NoMember agent req →
    agent.allocator.allocated.lookup req.clientKey = none ∧
      (req.clientKey ≠ "" → Apart req.memberID (req.record env ip) agent.store.members)
  refused : ¬ NoMember agent req →
    (env.server.addPeer exec agent.peers req.clientKey ip).toOption = none →
    agent.allocator.allocated.lookup req.clientKey = none ∧
      Apart req.memberID (req.record env ip) agent.store.members ∧
      ∀ m, agent.store.members.find? (·.memberID = req.memberID) = some m →
        ∀ c ∈ m.clients, c.wgPublicKey ≠ req.clientKey
  unsigned : ¬ NoMember agent req →
    (env.server.addPeer exec agent.peers req.clientKey ip).toOption.isSome = true →
    (provisionResponse env req ip).toOption = none →
    agent.allocator.allocated.lookup req.clientKey = some ip ∧
      Apart req.memberID (req.record env ip) agent.store.members ∧
      (∀ m, agent.store.members.find? (·.memberID = req.memberID) = some m →
        putClient (req.record env ip) m.clients = m.clients) ∧
      agent.peers.lookup req.clientKey = some ⟨req.clientKey, ip, env.server.tunnelIPv6 ip⟩

end

variable {env : Env} {exec : List String → Bool} {agent : Agent} {req : ProvisionRequest}
  {ip : String} {allocator : Allocator}

/-- Adding the record of the client fails when there is no row for it. -/
theorem addClient_false_iff :
    (agent.store.addClient req.memberID (req.record env ip)).2 = false ↔ NoMember agent req := by
  have hAny : (agent.store.members.map (strip req.memberID (req.record env ip))).any
      (·.memberID = req.memberID) = true ↔
        ¬ ∀ m ∈ agent.store.members, m.memberID ≠ req.memberID := by
    simp [List.any_map]
  by_cases hKey : req.clientKey = ""
  · simp [addClient, NoMember, hKey]
  · rw [addClient, if_neg (show (req.record env ip).wgPublicKey ≠ "" from hKey), NoMember]
    dsimp only
    split
    next h => simp [hKey, hAny.mp h]
    next h => simpa [hKey] using not_not.mp (mt hAny.mpr h)

theorem insert_eq_self_iff {peers : Peers} {key : String} {peer : Peer} :
    peers.insert key peer = peers ↔ peers.lookup key = some peer := by
  constructor
  · intro h
    rw [← h, Finmap.lookup_insert]
  · intro h
    apply Finmap.ext_lookup
    intro other
    by_cases hOther : other = key
    · rw [hOther, Finmap.lookup_insert, h]
    · rw [Finmap.lookup_insert_of_ne _ hOther]

/-- Giving up for want of a member leaves no trace. -/
theorem unchanged_noMember_iff (nonces : StringMap NonceEntry) {store : Acl.Store}
    (hAllocate : agent.allocator.allocate env.subnet req.clientKey = some (allocator, ip))
    (hAdd : agent.store.addClient req.memberID (req.record env ip) = (store, false)) :
    Unchanged agent
        { agent with
          store := store, allocator := allocator.release req.clientKey, nonces := nonces } ↔
      agent.allocator.allocated.lookup req.clientKey = none ∧
        (req.clientKey ≠ "" → Apart req.memberID (req.record env ip) agent.store.members) := by
  have hMembers : store.members = agent.store.members ↔
      (req.clientKey ≠ "" → Apart req.memberID (req.record env ip) agent.store.members) := by
    by_cases hKey : req.clientKey = ""
    · have hSame : agent.store.addClient req.memberID (req.record env ip) = (agent.store, false) :=
        if_pos hKey
      rw [hSame] at hAdd
      cases hAdd
      simp [hKey]
    · rcases addClient_eq_false hAdd with ⟨hEmpty, _⟩ | ⟨_, rfl⟩
      · exact absurd hEmpty hKey
      · rw [map_strip_eq_self_iff]
        exact ⟨fun h _ => h, fun h => h hKey⟩
  constructor
  · intro h
    exact ⟨(Allocator.release_allocate_iff hAllocate).mp h.allocator, hMembers.mp h.members⟩
  · rintro ⟨hFresh, hApart⟩
    exact ⟨hMembers.mpr hApart, (Allocator.release_allocate_iff hAllocate).mpr hFresh, rfl⟩

/-- Giving up when the peer is refused leaves no trace. -/
theorem unchanged_refused_iff (nonces : StringMap NonceEntry) {store : Acl.Store}
    (hAllocate : agent.allocator.allocate env.subnet req.clientKey = some (allocator, ip))
    (hAdd : agent.store.addClient req.memberID (req.record env ip) = (store, true)) :
    Unchanged agent
        { agent with
          store := (store.removeClient req.memberID req.clientKey).1
          allocator := allocator.release req.clientKey
          nonces := nonces } ↔
      agent.allocator.allocated.lookup req.clientKey = none ∧
        Apart req.memberID (req.record env ip) agent.store.members ∧
        ∀ m, agent.store.members.find? (·.memberID = req.memberID) = some m →
          ∀ c ∈ m.clients, c.wgPublicKey ≠ req.clientKey := by
  have hMembers : (store.removeClient req.memberID req.clientKey).1.members =
        agent.store.members ↔
      Apart req.memberID (req.record env ip) agent.store.members ∧
        ∀ m, agent.store.members.find? (·.memberID = req.memberID) = some m →
          ∀ c ∈ m.clients, c.wgPublicKey ≠ req.clientKey := by
    have hKey : req.clientKey = (req.record env ip).wgPublicKey := rfl
    rw [hKey, removeClient_addClient hAdd, rewriteClients_eq_self_iff]
    refine and_congr_right fun _ => forall₂_congr fun m _ => ?_
    rw [List.filter_eq_self]
    exact forall₂_congr fun c _ => decide_eq_true_iff
  constructor
  · intro h
    exact ⟨(Allocator.release_allocate_iff hAllocate).mp h.allocator, hMembers.mp h.members⟩
  · rintro ⟨hFresh, hRows⟩
    exact ⟨hMembers.mpr hRows, (Allocator.release_allocate_iff hAllocate).mpr hFresh, rfl⟩

/-- A provision that went through leaves no trace if all of it was there before. -/
theorem unchanged_installed_iff (nonces : StringMap NonceEntry) {store : Acl.Store} {peers : Peers}
    (hAllocate : agent.allocator.allocate env.subnet req.clientKey = some (allocator, ip))
    (hAdd : agent.store.addClient req.memberID (req.record env ip) = (store, true))
    (hPeer : env.server.addPeer exec agent.peers req.clientKey ip = .ok peers) :
    Unchanged agent
        { agent with store := store, allocator := allocator, peers := peers, nonces := nonces } ↔
      agent.allocator.allocated.lookup req.clientKey = some ip ∧
        Apart req.memberID (req.record env ip) agent.store.members ∧
        (∀ m, agent.store.members.find? (·.memberID = req.memberID) = some m →
          putClient (req.record env ip) m.clients = m.clients) ∧
        agent.peers.lookup req.clientKey =
          some ⟨req.clientKey, ip, env.server.tunnelIPv6 ip⟩ := by
  obtain ⟨_, _, rfl⟩ := addClient_eq_true hAdd
  obtain ⟨_, rfl⟩ := Server.addPeer_eq_ok hPeer
  have hMembers := @rewriteClients_eq_self_iff (req.record env ip) req.memberID
    agent.store.members (putClient (req.record env ip))
  constructor
  · intro h
    obtain ⟨hApart, hRow⟩ := hMembers.mp h.members
    exact ⟨(Allocator.allocate_eq_self_iff hAllocate).mp h.allocator, hApart, hRow,
      insert_eq_self_iff.mp h.peers⟩
  · rintro ⟨hHeld, hApart, hRow, hPeers⟩
    exact ⟨hMembers.mpr ⟨hApart, hRow⟩, (Allocator.allocate_eq_self_iff hAllocate).mpr hHeld,
      insert_eq_self_iff.mpr hPeers⟩

/-- A provision that is given an address. -/
theorem failed_unchanged_iff_undoable {now : Time} {msg : TunnelMessage}
    {nonces : StringMap NonceEntry}
    (hCheck : agent.checkProvision env now msg = ({ agent with nonces := nonces }, .ok req))
    (hAllocate : agent.allocator.allocate env.subnet req.clientKey = some (allocator, ip)) :
    (∀ e, (agent.handleProvision env now exec msg).2 = .error e →
      Unchanged agent (agent.handleProvision env now exec msg).1) ↔
        Undoable env exec agent req ip := by
  have hMember := @addClient_false_iff env agent req ip
  rw [Agent.handleProvision, hCheck]
  simp only [Agent.addClientPeer, hAllocate]
  rcases hAdd : agent.store.addClient req.memberID (req.record env ip) with ⟨store, known⟩
  rw [hAdd] at hMember
  cases known with
  | false =>
      have hNone : NoMember agent req := hMember.mp rfl
      have hTrace := unchanged_noMember_iff nonces hAllocate hAdd
      constructor
      · intro h
        exact ⟨fun _ => hTrace.mp (h _ rfl), fun hSome => absurd hNone hSome,
          fun hSome => absurd hNone hSome⟩
      · intro h e he
        exact hTrace.mpr (h.noMember hNone)
  | true =>
      have hSome : ¬ NoMember agent req := fun h => Bool.noConfusion (hMember.mpr h)
      dsimp only
      cases hPeer : env.server.addPeer exec agent.peers req.clientKey ip with
      | error e =>
          have hTrace := unchanged_refused_iff nonces hAllocate hAdd
          constructor
          · intro h
            exact ⟨fun hNone => absurd hNone hSome, fun _ _ => hTrace.mp (h _ rfl),
              fun _ hInstalled => by
                rw [hPeer] at hInstalled
                cases hInstalled⟩
          · intro h e' he
            exact hTrace.mpr (h.refused hSome (by rw [hPeer]; rfl))
      | ok peers =>
          have hTrace := unchanged_installed_iff nonces hAllocate hAdd hPeer
          have hInstalled :
              (env.server.addPeer exec agent.peers req.clientKey ip).toOption ≠ none := by
            rw [hPeer]
            exact Option.some_ne_none peers
          dsimp only
          cases hSign : provisionResponse env req ip with
          | error e =>
              constructor
              · intro h
                exact ⟨fun hNone => absurd hNone hSome,
                  fun _ hRefused => absurd hRefused hInstalled,
                  fun _ _ _ => hTrace.mp (h e rfl)⟩
              · intro h e' he
                exact hTrace.mpr (h.unsigned hSome (by rw [hPeer]; rfl) (by rw [hSign]; rfl))
          | ok response =>
              constructor
              · intro h
                exact ⟨fun hNone => absurd hNone hSome,
                  fun _ hRefused => absurd hRefused hInstalled,
                  fun _ _ hUnsigned => by
                    rw [hSign] at hUnsigned
                    cases hUnsigned⟩
              · intro h e' he
                cases he

/-- A provision that fails leaves members, allocations and peers as they were just if it finds
the agent in a state that its way of failing restores. -/
theorem failed_provision_unchanged_iff (env : Env) (now : Time) (exec : List String → Bool)
    (agent : Agent) (msg : TunnelMessage) :
    (∀ e, (agent.handleProvision env now exec msg).2 = .error e →
      Unchanged agent (agent.handleProvision env now exec msg).1) ↔
    ∀ req, (agent.checkProvision env now msg).2 = .ok req → ∀ allocator ip,
      agent.allocator.allocate env.subnet req.clientKey = some (allocator, ip) →
        Undoable env exec agent req ip := by
  obtain ⟨nonces, hState⟩ := checkProvision_state env now agent msg
  rcases hCheck : agent.checkProvision env now msg with ⟨checked, e | req⟩
  all_goals
    rw [hCheck] at hState
    dsimp only at hState
    subst hState
  · have hFails : agent.handleProvision env now exec msg =
        ({ agent with nonces := nonces }, .error e) := by
      rw [Agent.handleProvision, hCheck]
    rw [hFails]
    constructor
    · intro _ req hReq
      cases hReq
    · intro _ e' _
      exact ⟨rfl, rfl, rfl⟩
  · cases hAllocate : agent.allocator.allocate env.subnet req.clientKey with
    | none =>
        have hFails : agent.handleProvision env now exec msg =
            ({ agent with nonces := nonces }, .error .allocate) := by
          rw [Agent.handleProvision, hCheck]
          simp only [Agent.addClientPeer, hAllocate]
        rw [hFails]
        constructor
        · intro _ req' hReq allocator ip hSome
          cases hReq
          cases hAllocate.symm.trans hSome
        · intro _ e' _
          exact ⟨rfl, rfl, rfl⟩
    | some p =>
        obtain ⟨allocator, ip⟩ := p
        rw [failed_unchanged_iff_undoable hCheck hAllocate]
        constructor
        · intro h req' hReq allocator' ip' hSome
          cases hReq
          cases hAllocate.symm.trans hSome
          exact h
        · intro h
          exact h req rfl allocator ip hAllocate

/-- The owner has provisioned a client and asks for another nonce for it. -/
def provisionedAgent : Agent :=
  let challenge (now : Time) : Input :=
    .succeeding now (.challenge (some "00") (sampleChallenge (sampleKey 1) "a" (sampleWGKey 3) 0))
  Machine.run (Agent.step (sampleEnv [])) ownerAgent
    [challenge 0, .succeeding 1 (.provision hexProvision), challenge 2]

/-- The client is provisioned again, and the `wg` command fails. -/
def failedReprovision : Agent × Except CommandError ProvisionResponsePayload :=
  provisionedAgent.handleProvision (sampleEnv []) 3 (fun _ => false) hexProvision

/-- The record and the address of the client are gone, and its peer stays. -/
theorem failed_reprovision_loses_client :
    (∃ e, failedReprovision.2 = .error e) ∧
    (Acl.clientKeys provisionedAgent.store.members = [sampleWGKey 3] ∧
      Acl.clientKeys failedReprovision.1.store.members = []) ∧
    (provisionedAgent.allocator.allocated.lookup (sampleWGKey 3) = some "100.64.0.2" ∧
      failedReprovision.1.allocator.allocated.lookup (sampleWGKey 3) = none) ∧
    (failedReprovision.1.peers.lookup (sampleWGKey 3)).isSome = true ∧
    ¬ Unchanged provisionedAgent failedReprovision.1 := by
  have hFails : failedReprovision.2.toOption = none := by decide +kernel
  have hAddress : provisionedAgent.allocator.allocated.lookup (sampleWGKey 3) = some "100.64.0.2" ∧
      failedReprovision.1.allocator.allocated.lookup (sampleWGKey 3) = none := by decide +kernel
  refine ⟨?_, by decide +kernel, hAddress, by decide +kernel, fun h => ?_⟩
  · cases hOutcome : failedReprovision.2 with
    | error e => exact ⟨e, rfl⟩
    | ok response =>
        rw [hOutcome] at hFails
        cases hFails
  · rw [h.allocator] at hAddress
    cases hAddress.1.symm.trans hAddress.2

end Tunnel
