import AtreoAgent.Tunnel.Applied
import AtreoAgent.Tunnel.Refusal

/-! Whether there are enough hosts for a device state. Its new clients get addresses before
those of the clients that left are taken back, and keys of refused states keep theirs. So it
is not its own keys that have to fit the subnet but these together with all that hold an
address. -/
namespace Tunnel

open Codec Json Atreolink WireGuard Fallible Machine

variable {env : Env} {agent : Agent}

theorem evolves_addClientPeer (env : Env) (exec : List String → Bool) (agent : Agent)
    (req : ProvisionRequest) :
    agent.allocator.Evolves env.subnet (agent.addClientPeer env exec req).1.allocator := by
  have hCase := addClientPeer_cases env exec agent req
  generalize (agent.addClientPeer env exec req).1 = next at hCase ⊢
  cases hCase with
  | noAddress => exact .refl
  | unknownMember allocator ip store hAllocate hAdd =>
      exact (Allocator.evolves_allocate hAllocate).release _
  | peerRefused allocator ip store e hAllocate hAdd hPeer =>
      exact (Allocator.evolves_allocate hAllocate).release _
  | installed allocator ip store peers hAllocate hAdd hPeer =>
      exact Allocator.evolves_allocate hAllocate

/-- A step binds and releases addresses, and does nothing else to the allocator. -/
theorem evolves_step (env : Env) (agent : Agent) (input : Input) :
    agent.allocator.Evolves env.subnet (agent.step env input).allocator := by
  have hEffect := step_effect env agent input
  generalize agent.step env input = next at hEffect ⊢
  cases hEffect with
  | quiet nonces live => exact .refl
  | unbound msg hEvent c => exact c.evolves_binding
  | applied msg hEvent a =>
      exact a.evolves_binding.trans (evolves_foldl_perform a.application.ops a.replaced)
  | provisioned msg hEvent nonces req hPasses =>
      exact evolves_addClientPeer env input.exec { agent with nonces := nonces } req
  | dropped live hEvent hTrip => exact .refl

/-- Every host is free or is held by one key. -/
structure Tallied (env : Env) (agent : Agent) : Prop where
  sound : agent.allocator.Sound env.subnet
  accounted : agent.allocator.Accounted env.subnet

theorem tallied_fresh (env : Env) (pin : Option PublicKey) : Tallied env (Agent.fresh env pin) :=
  ⟨Allocator.sound_new env.subnet, Allocator.accounted_new env.subnet⟩

theorem Tallied.step (h : Tallied env agent) (input : Input) :
    Tallied env (agent.step env input) where
  sound := (evolves_step env agent input).sound h.sound
  accounted := (evolves_step env agent input).accounted h.accounted

/-- The keys of a device state that need an address, and all that hold one. -/
def demand (a : Allocator) (st : DeviceState) : Finset String :=
  (registeredKeys st).toFinset.erase "" ∪ a.allocated.keys

/-- At first no key but those of the device state counts. -/
theorem card_demand_fresh_le (env : Env) (pin : Option PublicKey) (st : DeviceState) :
    (demand (Agent.fresh env pin).allocator st).card ≤ (registeredKeys st).length := by
  have hEmpty : (Agent.fresh env pin).allocator.allocated.keys = ∅ := Finmap.keys_empty
  rw [demand, hEmpty, Finset.union_empty]
  exact Finset.card_erase_le.trans (List.toFinset_card_le _)

theorem freshKeys_eq_sdiff (a : Allocator) (keys : List String) :
    freshKeys a keys = keys.toFinset.erase "" \ a.allocated.keys := by
  ext key
  rw [mem_freshKeys, Finset.mem_sdiff, Finset.mem_erase, List.mem_toFinset, Finmap.mem_keys,
    Finmap.lookup_eq_none]
  tauto

/-- The free hosts suffice just if the subnet has room for the whole demand. -/
theorem Tallied.enough_iff (h : Tallied env agent) (st : DeviceState) :
    (freshKeys agent.allocator (registeredKeys st)).card ≤ (agent.allocator.free env.subnet).card ↔
      (demand agent.allocator st).card ≤ 253 := by
  have hHosts := Allocator.card_free_add_card_keys h.sound h.accounted
  have hDemand : (freshKeys agent.allocator (registeredKeys st)).card +
      agent.allocator.allocated.keys.card = (demand agent.allocator st).card := by
    rw [freshKeys_eq_sdiff, Finset.card_sdiff_add_card, demand]
  omega

/-- The keys of all clients of a device state. -/
def listedKeys (st : DeviceState) : Finset String :=
  ((st.members.flatMap (·.clients)).map (·.wgPublicKey)).toFinset

/-- A verified device state whose admins carry the pinned key, with no more client keys than
there are hosts. -/
structure Checked.Fits {now : Time} {msg : TunnelMessage} (c : Checked env now agent msg) :
    Prop where
  admins : ∀ dm ∈ c.st.members, dm.isAdmin = true → dm.identityKey = c.ownerPub.base64
  keys : (listedKeys c.st).card ≤ 253

/-- A device state that fits is applied. -/
def Granted (env : Env) (agent : Agent) (input : Input) : Prop :=
  ∀ msg, input.event = .deviceState msg → ∀ c : Checked env input.now agent msg, c.Fits →
    (agent.handleDeviceState env input.now input.exec msg).2.isApplied = true

/-- The keys of a device state that fits and the other keys that hold an address fit as well. -/
def Room (env : Env) (agent : Agent) (input : Input) : Prop :=
  ∀ msg, input.event = .deviceState msg → ∀ c : Checked env input.now agent msg, c.Fits →
    (demand agent.allocator c.st).card ≤ 253

theorem Tallied.granted_iff_room (h : Tallied env agent) (input : Input) :
    Granted env agent input ↔ Room env agent input := by
  refine forall_congr' fun msg => forall_congr' fun _ => forall_congr' fun c =>
    forall_congr' fun hFits => ?_
  rw [isApplied_iff_accepted, c.accepted_iff, h.enough_iff]
  exact and_iff_left hFits.admins

/-- When every host is taken, a device state with a further key is refused. -/
theorem Tallied.refused_of_crowded (h : Tallied env agent) {now : Time} {msg : TunnelMessage}
    (c : Checked env now agent msg) {keys : Finset String}
    (hHeld : ∀ key ∈ keys, key ∈ agent.allocator.allocated) (hAll : keys.card = 253) {key : String}
    (hKey : key ∈ registeredKeys c.st) (hNe : key ≠ "") (hNew : key ∉ keys)
    (exec : List String → Bool) :
    (agent.handleDeviceState env now exec msg).2.isApplied = false := by
  refine eq_false_of_ne_true fun hApplied => ?_
  have hAccepted := (isApplied_iff_accepted env now exec agent msg).mp hApplied
  have hDemand := (h.enough_iff c.st).mp (c.accepted_iff.mp hAccepted).1
  have hMore : insert key keys ⊆ demand agent.allocator c.st := by
    intro other hOther
    rw [demand, Finset.mem_union, Finset.mem_erase, List.mem_toFinset, Finmap.mem_keys]
    rcases Finset.mem_insert.mp hOther with rfl | hOld
    · exact Or.inl ⟨hNe, hKey⟩
    · exact Or.inr (hHeld other hOld)
  have hCount := Finset.card_le_card hMore
  rw [Finset.card_insert_of_notMem hNew] at hCount
  omega

/-- In a run from a fresh start every device state that fits is applied just if, each time one
arrives, there is room for its keys beside those that hold an address. -/
theorem fitting_states_applied_iff (env : Env) (pin : Option PublicKey) (inputs : List Input) :
    Meets (Agent.step env) (Granted env) (Agent.fresh env pin) inputs ↔
      Meets (Agent.step env) (Room env) (Agent.fresh env pin) inputs :=
  meets_congr (Tallied env) (fun _ input h => h.granted_iff_room input)
    (fun _ input h _ => h.step input) (tallied_fresh env pin) inputs

variable {key : PublicKey} {wgPublicKeys : List String} {st : DeviceState}

theorem registeredKeys_sampleOwner (h : st.members = [sampleOwner key wgPublicKeys]) :
    registeredKeys st = wgPublicKeys := by
  rw [registeredKeys, h, List.flatMap_singleton, memberKeys, registeredClients_sample rfl,
    List.map_map]
  exact List.map_id' wgPublicKeys

theorem listedKeys_sampleOwner (h : st.members = [sampleOwner key wgPublicKeys]) :
    listedKeys st = wgPublicKeys.toFinset := by
  rw [listedKeys, h, List.flatMap_singleton, sampleOwner, List.map_map]
  exact congrArg List.toFinset (List.map_id' wgPublicKeys)

/-- A device state of the owner alone passes every check, and fits if it has few keys. -/
theorem exists_fitting {states : List DeviceState} (hReads : Reads states st)
    (hMembers : st.members = [sampleOwner key wgPublicKeys]) (hApps : st.apps = [])
    (hDevice : st.deviceID = "d") (hFew : wgPublicKeys.length ≤ 253) (now : Time) (agent : Agent)
    (hPinned : agent.store.pinnedAdminPubKey = some key)
    (hNewer : agent.store.generation ≤ st.generation) :
    ∃ c : Checked (sampleEnv states) now agent (sampleState st), c.st = st ∧ c.Fits := by
  have hVerify : verifyState (sampleEnv states) agent.store key now st =
      .ok ⟨[], [sampleRow (sampleOwner key wgPublicKeys) [] "active" wgPublicKeys]⟩ := by
    have hNoApps : verifyApps (sampleEnv states) agent.store key st.apps = .ok [] := by
      rw [hApps]
      rfl
    refine verifyState_sample hNoApps ?_
    rw [hMembers]
    exact .cons (verifyMember_sampleOwner ..) .nil
  refine ⟨⟨st, key, _, decodeDeviceState_sample hReads, fun h => h.2 hDevice, hNewer, hPinned,
    hVerify⟩, rfl, ⟨fun dm hdm _ => ?_, ?_⟩⟩
  · rw [hMembers, List.mem_singleton] at hdm
    rw [hdm]
    rfl
  · rw [listedKeys_sampleOwner hMembers]
    exact (List.toFinset_card_le wgPublicKeys).trans hFew

theorem sampleWGKey_inj {i j : Nat} (hi : i < 256) (hj : j < 256)
    (h : sampleWGKey (UInt8.ofNat i) = sampleWGKey (UInt8.ofNat j)) : i = j := by
  have hKeys := congrArg decode64 h
  simp only [sampleWGKey, PublicKey.base64, decode64_encode64, Option.some.injEq] at hKeys
  have hBytes := congrArg UInt8.toNat (List.cons.inj hKeys).1
  rwa [UInt8.toNat_ofNat', UInt8.toNat_ofNat', Nat.mod_eq_of_lt hi, Nat.mod_eq_of_lt hj] at hBytes

theorem sampleWGKey_ne_empty (b : UInt8) : sampleWGKey b ≠ "" :=
  base64_ne_empty (sampleKey b)

/-- As many keys as there are hosts. -/
def crowdKeys : List String := (List.range 253).map fun i => sampleWGKey (UInt8.ofNat i)

theorem mem_crowdKeys {key : String} :
    key ∈ crowdKeys ↔ ∃ i < 253, sampleWGKey (UInt8.ofNat i) = key := by
  simp [crowdKeys]

theorem length_crowdKeys : crowdKeys.length = 253 := by
  rw [crowdKeys, List.length_map, List.length_range]

theorem card_crowdKeys : crowdKeys.toFinset.card = 253 := by
  refine (List.toFinset_card_of_nodup ?_).trans length_crowdKeys
  refine List.nodup_range.map_on fun i hi j hj => ?_
  rw [List.mem_range] at hi hj
  exact sampleWGKey_inj (by omega) (by omega)

/-- The owner with as many clients as there are hosts. -/
def crowdState : DeviceState :=
  { deviceID := "d", generation := 1, members := [sampleOwner (sampleKey 1) crowdKeys]
    apps := [] }

theorem registeredKeys_crowdState : registeredKeys crowdState = crowdKeys :=
  registeredKeys_sampleOwner rfl

/-- The owner with one other client instead. -/
def newcomerState : DeviceState :=
  { deviceID := "d", generation := 2
    members := [sampleOwner (sampleKey 1) [sampleWGKey 253]], apps := [] }

def crowdEnv : Env := sampleEnv [crowdState, newcomerState]

/-- The agent after the first of the two. -/
def crowdAgent : Agent :=
  (sampleAgent crowdEnv).step crowdEnv
    (.succeeding 0 (.deviceState (sampleState crowdState)))

theorem reads_crowd : Reads [crowdState, newcomerState] crowdState ∧
    Reads [crowdState, newcomerState] newcomerState := by
  have hStart : (crowdState.json.print true).take 34 ≠ (newcomerState.json.print true).take 34 := by
    decide +kernel
  exact ⟨reads_head _ _, reads_cons (fun hSame => hStart (by rw [hSame])) (reads_head _ _)⟩

/-- The first state is applied. -/
theorem exists_crowd_accepted :
    ∃ a : Accepted crowdEnv 0 (sampleAgent crowdEnv) (sampleState crowdState),
      a.st = crowdState ∧ crowdAgent = a.result fun _ => true := by
  have hFitting : ∃ c : Checked crowdEnv 0 (sampleAgent crowdEnv)
      (sampleState crowdState), c.st = crowdState ∧ c.Fits :=
    exists_fitting reads_crowd.1 rfl rfl rfl length_crowdKeys.le 0 _ rfl (by decide)
  obtain ⟨c, hState, hFits⟩ := hFitting
  have hDemand := card_demand_fresh_le crowdEnv (some (sampleKey 1)) c.st
  rw [hState, registeredKeys_crowdState, length_crowdKeys, ← hState] at hDemand
  have hEnough := ((tallied_fresh crowdEnv (some (sampleKey 1))).enough_iff c.st).mpr hDemand
  obtain ⟨a, hResult⟩ :=
    exists_handle_eq (c.accepted_iff.mpr ⟨hEnough, hFits.admins⟩) fun _ => true
  obtain rfl : a.toChecked = c := Subsingleton.elim _ _
  exact ⟨a, hState, (step_of_deviceState crowdEnv _ rfl).trans (congrArg Prod.fst hResult)⟩

/-- A state with one client passes every check and is refused, since the clients that it leaves
out hold all the hosts. -/
theorem newcomer_refused :
    ∃ c : Checked crowdEnv 0 crowdAgent (sampleState newcomerState), c.Fits ∧
      listedKeys c.st = {sampleWGKey 253} ∧
      (crowdAgent.handleDeviceState crowdEnv 0 (fun _ => true)
        (sampleState newcomerState)).2.isApplied = false := by
  have hTallied : Tallied crowdEnv crowdAgent := (tallied_fresh _ _).step _
  have hPinned : crowdAgent.store.pinnedAdminPubKey = some (sampleKey 1) := by
    rw [crowdAgent, step_pinned]
    rfl
  obtain ⟨a, hCrowd, hAgent⟩ := exists_crowd_accepted
  rw [hAgent] at hTallied hPinned ⊢
  have hMembers : newcomerState.members = [sampleOwner (sampleKey 1) [sampleWGKey 253]] := rfl
  have hNewer : (a.result fun _ => true).store.generation ≤ newcomerState.generation := by
    rw [a.result_store, hCrowd]
    exact (by decide : crowdState.generation ≤ newcomerState.generation)
  have hFitting : ∃ c : Checked crowdEnv 0 (a.result fun _ => true) (sampleState newcomerState),
      c.st = newcomerState ∧ c.Fits :=
    exists_fitting reads_crowd.2 hMembers rfl rfl (by simp) 0 _ hPinned hNewer
  obtain ⟨c, hState, hFits⟩ := hFitting
  have hHeld : ∀ key ∈ crowdKeys.toFinset, key ∈ (a.result fun _ => true).allocator.allocated := by
    intro key hKey
    rw [List.mem_toFinset] at hKey
    have hRegistered : key ∈ registeredKeys a.st := by
      rw [hCrowd, registeredKeys_crowdState]
      exact hKey
    obtain ⟨i, _, rfl⟩ := mem_crowdKeys.mp hKey
    exact a.allocated_of_registered (Allocator.sound_new _) _ hRegistered (sampleWGKey_ne_empty _)
  have hKey : sampleWGKey 253 ∈ registeredKeys c.st := by
    rw [hState, registeredKeys_sampleOwner hMembers]
    exact List.mem_singleton_self _
  have hNew : sampleWGKey 253 ∉ crowdKeys.toFinset := by
    rw [List.mem_toFinset, mem_crowdKeys]
    rintro ⟨i, hi, hSame⟩
    have hNumber : i = 253 := sampleWGKey_inj (by omega) (by omega) hSame
    omega
  refine ⟨c, hFits, ?_, hTallied.refused_of_crowded c hHeld card_crowdKeys hKey
    (sampleWGKey_ne_empty _) hNew _⟩
  rw [hState, listedKeys_sampleOwner hMembers]
  simp

end Tunnel
