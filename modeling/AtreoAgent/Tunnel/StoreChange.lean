import AtreoAgent.Machine.Run
import AtreoAgent.Tunnel.Consistent

/-! What a step of the agent does to its access list. The list is kept, replaced by a
device state, given the client of a provision, or rid of that client when its peer is
refused. The indexes stay those of the rows, and the rows of a provision differ from those
before it in their clients alone. -/
namespace Tunnel

open Codec Atreolink Acl WireGuard

inductive StoreChange (env : Env) (agent : Agent) (input : Input) : Store → Prop where
  | kept : StoreChange env agent input agent.store
  | applied (msg : TunnelMessage) (hEvent : input.event = .deviceState msg)
      (a : Accepted env input.now agent msg) :
      StoreChange env agent input (a.store.setAppliedGeneration a.st.generation input.now)
  | added (msg : TunnelMessage) (hEvent : input.event = .provision msg) (req : ProvisionRequest)
      (hPasses : (agent.checkProvision env input.now msg).2 = .ok req) (allocator : Allocator)
      (ip : String) (store : Store) (peers : Peers)
      (hAllocate : agent.allocator.allocate env.subnet req.clientKey = some (allocator, ip))
      (hAdd : agent.store.addClient req.memberID (req.record env ip) = (store, true))
      (hPeer : env.server.addPeer input.exec agent.peers req.clientKey ip = .ok peers) :
      StoreChange env agent input store
  /-- The peer is refused, and the client goes again. -/
  | withdrawn (msg : TunnelMessage) (hEvent : input.event = .provision msg)
      (req : ProvisionRequest) (hPasses : (agent.checkProvision env input.now msg).2 = .ok req)
      (allocator : Allocator) (ip : String) (store : Store) (e : PeerError)
      (hAllocate : agent.allocator.allocate env.subnet req.clientKey = some (allocator, ip))
      (hAdd : agent.store.addClient req.memberID (req.record env ip) = (store, true))
      (hPeer : env.server.addPeer input.exec agent.peers req.clientKey ip = .error e) :
      StoreChange env agent input (store.removeClient req.memberID req.clientKey).1

variable {env : Env} {agent : Agent} {input : Input}

/-- The member of a provision that passes its checks has a row, so adding its client does
not fail. -/
theorem storeChange_step (h : agent.store.Coherent) :
    StoreChange env agent input (agent.step env input).store := by
  have hCase := step_effect env agent input
  generalize agent.step env input = next at hCase ⊢
  cases hCase with
  | quiet nonces live => exact .kept
  | unbound msg hEvent c => exact .kept
  | applied msg hEvent a =>
      rw [a.result_store]
      exact .applied msg hEvent a
  | provisioned msg hEvent nonces req hPasses =>
      have hProvision := addClientPeer_cases env input.exec { agent with nonces := nonces } req
      generalize (Agent.addClientPeer env input.exec { agent with nonces := nonces } req).1 = after
        at hProvision ⊢
      cases hProvision with
      | noAddress hNone => exact .kept
      | unknownMember allocator ip store hAllocate hAdd =>
          obtain ⟨m, hFound⟩ := exists_member_of_checkProvision hPasses
          obtain ⟨hm, hID⟩ := h.exists_member hFound
          rcases Store.addClient_eq_false hAdd with ⟨_, hSame⟩ | ⟨hUnknown, _⟩
          · rw [hSame]
            exact .kept
          · exact absurd hID (hUnknown m hm)
      | peerRefused allocator ip store e hAllocate hAdd hPeer =>
          exact .withdrawn msg hEvent req hPasses allocator ip store e hAllocate hAdd hPeer
      | installed allocator ip store peers hAllocate hAdd hPeer =>
          exact .added msg hEvent req hPasses allocator ip store peers hAllocate hAdd hPeer
  | dropped live hEvent hTrip => exact .kept

namespace StoreChange

variable {next : Store}

theorem coherent (h : StoreChange env agent input next) (hStore : agent.store.Coherent) :
    next.Coherent := by
  cases h with
  | kept => exact hStore
  | applied msg hEvent a =>
      rw [(Store.reconcile_eq_ok a.reconciles).2.1]
      exact (Store.coherent_rebuildIndexes _).setAppliedGeneration _ _
  | added msg hEvent req hPasses allocator ip store peers hAllocate hAdd hPeer => exact .addClient hAdd
  | withdrawn msg hEvent req hPasses allocator ip store e hAllocate hAdd hPeer =>
      exact (Store.Coherent.addClient hAdd).removeClient _ _

/-- A row is one of the new device state, or one that was there with other clients. -/
theorem exists_row (h : StoreChange env agent input next) {n : MemberACLEntry}
    (hn : n ∈ next.members) :
    (∃ msg, ∃ a : Accepted env input.now agent msg, n ∈ a.members) ∨
      ∃ m ∈ agent.store.members, n = { m with clients := n.clients } := by
  cases h with
  | kept => exact .inr ⟨n, hn, rfl⟩
  | applied msg hEvent a => exact .inl ⟨msg, a, a.store_members.1 ▸ hn⟩
  | added msg hEvent req hPasses allocator ip store peers hAllocate hAdd hPeer =>
      have hKin := Store.kin_addClient agent.store req.memberID (req.record env ip)
      rw [hAdd] at hKin
      exact .inr (hKin n hn)
  | withdrawn msg hEvent req hPasses allocator ip store e hAllocate hAdd hPeer =>
      have hKin := Store.kin_addClient agent.store req.memberID (req.record env ip)
      rw [hAdd] at hKin
      exact .inr (hKin.trans (Store.kin_removeClient store _ _) n hn)

/-- A client is one of the new device state, one that was there, or the one provisioned,
perhaps with what it left empty taken from its record. -/
theorem exists_client (h : StoreChange env agent input next) {n : MemberACLEntry}
    (hn : n ∈ next.members) {d : ClientRecord} (hd : d ∈ n.clients) :
    (∃ msg, ∃ a : Accepted env input.now agent msg, n ∈ a.members) ∨
      (∃ m ∈ agent.store.members, d ∈ m.clients) ∨
      ∃ (req : ProvisionRequest) (ip : String), d = req.record env ip ∨
        ∃ m ∈ agent.store.members, ∃ prev ∈ m.clients,
          d = ClientRecord.fillFrom (req.record env ip) prev true := by
  cases h with
  | kept => exact .inr (.inl ⟨n, hn, hd⟩)
  | applied msg hEvent a => exact .inl ⟨msg, a, a.store_members.1 ▸ hn⟩
  | added msg hEvent req hPasses allocator ip store peers hAllocate hAdd hPeer =>
      obtain ⟨_, _, rfl⟩ := Store.addClient_eq_true hAdd
      obtain ⟨m, hm, _, hClients⟩ := Store.clients_of_rewriteClients hn
      rcases hClients d hd with hOld | hPut
      · exact .inr (.inl ⟨m, hm, hOld⟩)
      · rcases Store.mem_putClient hPut with hOld | hNew | ⟨prev, hPrev, _, hFilled⟩
        · exact .inr (.inl ⟨m, hm, hOld⟩)
        · exact .inr (.inr ⟨req, ip, .inl hNew⟩)
        · exact .inr (.inr ⟨req, ip, .inr ⟨m, hm, prev, hPrev, hFilled⟩⟩)
  | withdrawn msg hEvent req hPasses allocator ip store e hAllocate hAdd hPeer =>
      have hRows : (store.removeClient req.memberID req.clientKey).1.members = _ :=
        Store.removeClient_addClient hAdd
      rw [hRows] at hn
      obtain ⟨m, hm, _, hClients⟩ := Store.clients_of_rewriteClients hn
      rcases hClients d hd with hOld | hLeft
      · exact .inr (.inl ⟨m, hm, hOld⟩)
      · exact .inr (.inl ⟨m, hm, (List.mem_filter.mp hLeft).1⟩)

end StoreChange

end Tunnel
