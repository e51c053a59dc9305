import AtreoAgent.Acl.Clients
import AtreoAgent.Machine.Run
import AtreoAgent.Tunnel.Binding
import AtreoAgent.Tunnel.Rows
import AtreoAgent.Tunnel.Sample

/-! What a refused device state leaves behind. Everything is verified before anything
changes, but addresses are bound before the last two checks: that there are enough of
them, and that the admin rows carry the pinned key. -/
namespace Tunnel

open Codec Json Atreolink WireGuard Fallible

variable {env : Env} {now : Time} {agent : Agent} {msg : TunnelMessage}

/-- The access list, the catalogue, the generation, the addresses, the peers and the
liveness state are as before. -/
structure Untouched (before after : Agent) : Prop where
  members : after.store.members = before.store.members
  apps : after.store.apps = before.store.apps
  generation : after.store.generation = before.store.generation
  allocator : after.allocator = before.allocator
  peers : after.peers = before.peers
  live : after.live = before.live

/-- The device state would not be refused for a reason that is found only after an
address was bound. -/
def RefusedEarly (env : Env) (now : Time) (agent : Agent) (msg : TunnelMessage) : Prop :=
  ∀ st ownerPub, decodeDeviceState env msg = some st →
    ¬ (st.deviceID ≠ "" ∧ st.deviceID ≠ env.deviceID) →
    agent.store.generation ≤ st.generation →
    agent.store.pinnedAdminPubKey = some ownerPub →
    (verifyState env agent.store ownerPub now st).isOk = true →
    freshKeys agent.allocator (registeredKeys st) = ∅ ∨ agent.allocator.free env.subnet = ∅ ∨
      ((freshKeys agent.allocator (registeredKeys st)).card ≤ (agent.allocator.free env.subnet).card ∧
        ∀ dm ∈ st.members, dm.isAdmin = true → dm.identityKey = ownerPub.base64)

theorem Checked.keys_eq (c : Checked env now agent msg) :
    (c.entries.flatMap (·.clients)).map (·.wgPublicKey) = registeredKeys c.st := by
  rw [List.map_flatMap, ← c.clientKeys_entries]
  rfl

theorem Checked.binding_isOk (c : Checked env now agent msg) :
    c.binding.2.isOk = true ↔ (freshKeys agent.allocator (registeredKeys c.st)).card ≤
      (agent.allocator.free env.subnet).card := by
  rw [c.binding_eq.2, walk_bindClient_isOk, c.keys_eq]

theorem Checked.binding_unchanged (c : Checked env now agent msg) :
    c.binding.1 = agent.allocator ↔
      freshKeys agent.allocator (registeredKeys c.st) = ∅ ∨ agent.allocator.free env.subnet = ∅ := by
  rw [c.binding_eq.1, walk_bindClient_unchanged, c.keys_eq]

/-- The bound rows pass the pin check when the admins of the device state carry the
pinned key. -/
theorem Checked.validates_iff (c : Checked env now agent msg) {bound : List MemberACLEntry}
    (h : c.binding.2 = .ok bound) :
    agent.store.validateAdminPin (deriveIPv6 env.server bound) = .ok () ↔
      ∀ dm ∈ c.st.members, dm.isAdmin = true → dm.identityKey = c.ownerPub.base64 := by
  have hRows : List.Forall₂ (fun v n => AddressedRow v.entry n) c.verified.members
      (deriveIPv6 env.server bound) := List.forall₂_map_left_iff.mp (c.addressedRows h)
  have hStanding : ∀ dm v n, verifyMember env agent.store c.ownerPub now c.verified.apps dm = .ok v →
      AddressedRow v.entry n → n.isAdmin = dm.isAdmin ∧ n.identityKey = dm.identityKey := by
    intro dm v n hVerify hRow
    obtain ⟨_, hRole, hKey, _⟩ := entry_of_verifyMember hVerify
    rw [hRow.1]
    exact ⟨by simp only [MemberACLEntry.isAdmin, DSMember.isAdmin, hRole], hKey⟩
  rw [Acl.Store.validateAdminPin_eq_ok, c.pinned]
  constructor
  · intro hAll dm hdm hAdmin
    obtain ⟨v, hv, hVerify⟩ := exists_left c.verifiedMembers.flip hdm
    obtain ⟨n, hn, hRow⟩ := exists_left hRows.flip hv
    obtain ⟨hSame, hKey⟩ := hStanding dm v n hVerify hRow
    rw [← hKey]
    exact (hAll c.ownerPub rfl n hn (hSame.trans hAdmin)).2
  · rintro hAll _ ⟨⟩ n hn hAdmin
    obtain ⟨v, hv, hRow⟩ := exists_left hRows hn
    obtain ⟨dm, hdm, hVerify⟩ := exists_left c.verifiedMembers hv
    obtain ⟨hSame, hKey⟩ := hStanding dm v n hVerify hRow
    have hPinned : n.identityKey = c.ownerPub.base64 :=
      hKey.trans (hAll dm hdm (hSame.symm.trans hAdmin))
    refine ⟨?_, hPinned⟩
    rw [hPinned]
    exact base64_ne_empty c.ownerPub

/-- A verified device state is accepted when there is a host for every fresh key and the
admins carry the pinned key. -/
theorem Checked.accepted_iff (c : Checked env now agent msg) :
    Nonempty (Accepted env now agent msg) ↔
      (freshKeys agent.allocator (registeredKeys c.st)).card ≤
          (agent.allocator.free env.subnet).card ∧
        ∀ dm ∈ c.st.members, dm.isAdmin = true → dm.identityKey = c.ownerPub.base64 := by
  constructor
  · rintro ⟨a⟩
    obtain rfl := Subsingleton.elim a.toChecked c
    refine ⟨(Checked.binding_isOk _).mp (by rw [a.binds]; rfl), ?_⟩
    exact (Checked.validates_iff _ a.binds).mp (Acl.Store.reconcile_eq_ok a.reconciles).1
  · rintro ⟨hEnough, hPinned⟩
    have hOk := c.binding_isOk.mpr hEnough
    cases hBinds : c.binding.2 with
    | error e =>
        rw [hBinds] at hOk
        cases hOk
    | ok bound =>
        have hValid := (c.validates_iff hBinds).mpr hPinned
        cases hReconcile : agent.store.reconcile (deriveIPv6 env.server bound) c.verified.apps with
        | error e =>
            rw [Acl.Store.reconcile, hValid] at hReconcile
            cases hReconcile
        | ok r => exact ⟨⟨c, bound, r.1, r.2, hBinds, hReconcile⟩⟩

/-- A refused device state changes nothing unless it binds an address first. -/
theorem untouched_iff_refusedEarly (env : Env) (now : Time) (exec : List String → Bool)
    (agent : Agent) (msg : TunnelMessage) :
    ((∀ pending, (agent.handleDeviceState env now exec msg).2 ≠ .applied pending) →
      Untouched agent (agent.handleDeviceState env now exec msg).1) ↔
      RefusedEarly env now agent msg := by
  have hChecked : ∀ c : Checked env now agent msg, RefusedEarly env now agent msg ↔
      c.binding.1 = agent.allocator ∨ Nonempty (Accepted env now agent msg) := by
    intro c
    rw [c.binding_unchanged, c.accepted_iff, or_assoc]
    constructor
    · intro h
      exact h c.st c.ownerPub c.decodes c.device c.newer c.pinned (by rw [c.verifies]; rfl)
    · intro h st ownerPub hDecode _ _ hPin _
      cases c.decodes.symm.trans hDecode
      cases c.pinned.symm.trans hPin
      exact h
  rcases handleDeviceState_cases env now exec agent msg with
    ⟨r, hr, hNot, hEmpty⟩ | ⟨c, e, hr, hEmpty⟩ | ⟨a, hr⟩ <;> rw [hr]
  · -- The checks stop it, so the condition is empty.
    refine iff_of_true (fun _ => ⟨rfl, rfl, rfl, rfl, rfl, rfl⟩) ?_
    intro st ownerPub hDecode hDevice hNewer hPin hVerify
    cases hState : verifyState env agent.store ownerPub now st with
    | error e =>
        rw [hState] at hVerify
        cases hVerify
    | ok v => exact (hEmpty.false ⟨st, ownerPub, v, hDecode, hDevice, hNewer, hPin, hState⟩).elim
  · rw [hChecked c, or_iff_left (not_nonempty_iff.mpr hEmpty)]
    constructor
    · intro h
      exact (h fun pending hApplied => by cases hApplied).allocator
    · intro h _
      exact ⟨rfl, rfl, rfl, h, rfl, rfl⟩
  · exact iff_of_true (fun h => absurd rfl (h a.application.pending))
      ((hChecked a.toChecked).mpr (Or.inr ⟨a⟩))

theorem generation_addClientPeer (env : Env) (exec : List String → Bool) (agent : Agent)
    (req : ProvisionRequest) :
    (agent.addClientPeer env exec req).1.store.generation = agent.store.generation := by
  have hAdd : ∀ {rec store known}, agent.store.addClient req.memberID rec = (store, known) →
      store.generation = agent.store.generation := by
    intro rec store known h
    rw [← agent.store.addClient_generation req.memberID rec, h]
  have hCase := addClientPeer_cases env exec agent req
  generalize (agent.addClientPeer env exec req).1 = next at hCase ⊢
  cases hCase with
  | noAddress => rfl
  | unknownMember allocator ip store hAllocate hStore => exact hAdd hStore
  | peerRefused allocator ip store e hAllocate hStore hPeer =>
      exact (store.removeClient_generation _ _).trans (hAdd hStore)
  | installed allocator ip store peers hAllocate hStore hPeer => exact hAdd hStore

theorem generation_step (env : Env) (agent : Agent) (input : Input) :
    agent.store.generation ≤ (agent.step env input).store.generation := by
  have hEffect := step_effect env agent input
  generalize agent.step env input = next at hEffect ⊢
  cases hEffect with
  | quiet nonces live => exact Int.le_refl _
  | unbound msg hEvent c => exact Int.le_refl _
  | applied msg hEvent a =>
      rw [a.result_store]
      exact a.newer
  | provisioned msg hEvent nonces req hPasses =>
      rw [generation_addClientPeer]
  | dropped live hEvent hTrip => exact Int.le_refl _

theorem generation_run (env : Env) (agent : Agent) (inputs : List Input) :
    agent.store.generation ≤ (Machine.run (Agent.step env) agent inputs).store.generation := by
  induction inputs generalizing agent with
  | nil => exact Int.le_refl _
  | cons input inputs ih => exact Int.le_trans (generation_step env agent input) (ih _)

/-- A refused or ignored device state leaves everything as it was exactly when it is not
refused after an address was bound; and the applied generation never decreases. -/
theorem refused_state_changes_nothing_iff (env : Env) (now : Time) (exec : List String → Bool)
    (agent : Agent) (msg : TunnelMessage) :
    (((∀ pending, (agent.handleDeviceState env now exec msg).2 ≠ .applied pending) →
        Untouched agent (agent.handleDeviceState env now exec msg).1) ↔
      RefusedEarly env now agent msg) ∧
    ∀ inputs, agent.store.generation ≤
      (Machine.run (Agent.step env) agent inputs).store.generation :=
  ⟨untouched_iff_refusedEarly env now exec agent msg, generation_run env agent⟩

/-- A device state whose owner has another key than the pinned one. -/
def foreignOwner : DeviceState :=
  { deviceID := "d", generation := 1, members := [sampleOwner (sampleKey 2) ["k"]], apps := [] }

def foreignOwnerEnv : Env := sampleEnv [foreignOwner]

/-- The pin check refuses the foreign owner, whose client keeps an address. -/
theorem foreign_owner_keeps_address :
    (sampleAgent foreignOwnerEnv).allocator.lookup "k" = "" ∧
    ((sampleAgent foreignOwnerEnv).handleDeviceState foreignOwnerEnv 0
      (fun _ => true) (sampleState foreignOwner)).2.isApplied = false ∧
    ((sampleAgent foreignOwnerEnv).handleDeviceState foreignOwnerEnv 0
      (fun _ => true) (sampleState foreignOwner)).1.allocator.lookup "k" = "100.64.0.2" := by
  have hDecode : decodeDeviceState foreignOwnerEnv (sampleState foreignOwner) = some foreignOwner :=
    decodeDeviceState_sample (reads_head _ _)
  rw [handleDeviceState_of_decode hDecode]
  decide +kernel

end Tunnel
