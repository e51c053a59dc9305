import AtreoAgent.Machine.Run
import AtreoAgent.Tunnel.Consistent
import AtreoAgent.Tunnel.Sample

/-! What an applied device state leaves behind. Its peers are those of the registered
clients of its members that are not suspended, and a key that left the access list has
lost its address. -/
namespace Tunnel

open Codec Json Atreolink WireGuard Fallible Machine

/-- The status envelope of the member says suspended. -/
def suspends (dm : DSMember) : Bool :=
  dm.statusEnvelope.any fun envelope =>
    (PayloadType.memberStatus.unmarshal envelope.payload).any (·.status = "suspended")

variable {env : Env} {now : Time} {agent : Agent} {msg : TunnelMessage}

theorem verifyStatus_suspended {store : Acl.Store} {ownerPub : PublicKey} {dm : DSMember}
    {status : String} (h : verifyStatus env store ownerPub dm = .ok status) :
    status = "suspended" ↔ suspends dm = true := by
  unfold suspends
  rcases verifyStatus_eq_ok h with ⟨hEnvelope, rfl⟩ | ⟨e, sp, hEnvelope, hPayload, _, _, _, rfl⟩
  · simp [hEnvelope]
  · simp [hEnvelope, hPayload]

theorem keysApart_of_nodup {st : DeviceState} (h : (registeredKeys st).Nodup) : KeysApart st := by
  refine (List.nodup_flatMap.mp h).2.imp fun hDisjoint key hFirst hSecond => ?_
  exact absurd hSecond (hDisjoint hFirst)

namespace Accepted

variable (a : Accepted env now agent msg)

/-- A row and the member of the device state it was made from. -/
def RowOf (dm : DSMember) (n : MemberACLEntry) : Prop :=
  (n.status = "suspended" ↔ suspends dm = true) ∧ n.clients.map (·.wgPublicKey) = memberKeys dm

theorem rowOf {dm : DSMember} {v : VerifiedMember} {n : MemberACLEntry}
    (hVerify : verifyMember env agent.store a.ownerPub now a.verified.apps dm = .ok v)
    (hRow : AddressedRow v.entry n) : RowOf dm n := by
  obtain ⟨_, _, status, _, _, _, _, hStatus, _, _, hEntry⟩ := verifyMember_eq_ok hVerify
  refine ⟨?_, ?_⟩
  · have hSame : n.status = status := by rw [hRow.1, hEntry]
    rw [hSame]
    exact verifyStatus_suspended hStatus
  · rw [memberKeys, ← (entry_of_verifyMember hVerify).2.2.2.1]
    exact (map_eq_of_forall₂ hRow.2 fun c d hcd => hcd.wgPublicKey.symm).symm

theorem exists_member_of_row {n : MemberACLEntry} (hn : n ∈ a.members) :
    ∃ dm ∈ a.st.members, RowOf dm n := by
  obtain ⟨dm, hdm, v, hRow, hVerify⟩ := a.exists_verified hn
  exact ⟨dm, hdm, a.rowOf hVerify hRow⟩

theorem exists_row_of_member {dm : DSMember} (hdm : dm ∈ a.st.members) :
    ∃ n ∈ a.members, RowOf dm n := by
  obtain ⟨v, hv, hVerify⟩ := exists_right a.verifiedMembers hdm
  obtain ⟨n, hn, hRow⟩ := exists_right a.addressedRows (List.mem_map_of_mem hv)
  exact ⟨n, hn, a.rowOf hVerify hRow⟩

/-- The peers after an apply. -/
theorem mem_result_peers (h : Consistent env (validateWGPublicKey · = true) agent)
    (hKeys : KeysApart a.st) (hValid : ∀ key ∈ registeredKeys a.st, validateWGPublicKey key = true)
    {exec : List String → Bool} (hExec : ∀ command, exec command = true) (key : String) :
    key ∈ (a.result exec).peers ↔
      ∃ dm ∈ a.st.members, suspends dm = false ∧ key ∈ memberKeys dm := by
  constructor
  · intro hMem
    obtain ⟨peer, hPeer⟩ := Finmap.mem_iff.mp hMem
    have hInstalled := (a.consistent keyClass_valid h exec).peers key peer hPeer
    rw [a.result_members] at hInstalled
    obtain ⟨n, hn, c, hc, rfl⟩ := Acl.mem_clientKeys.mp hInstalled.listed
    obtain ⟨dm, hdm, hStatus, hRowKeys⟩ := a.exists_member_of_row hn
    refine ⟨dm, hdm, Bool.eq_false_of_not_eq_true fun hSuspended => ?_, ?_⟩
    · have hNone := a.no_peer_of_suspended hKeys exec hn (hStatus.mpr hSuspended) hc
        (keyClass_valid.nonempty _ hInstalled.valid)
      cases hNone.symm.trans hPeer
    · rw [← hRowKeys]
      exact List.mem_map_of_mem hc
  · rintro ⟨dm, hdm, hActive, hKey⟩
    obtain ⟨n, hn, hStatus, hRowKeys⟩ := a.exists_row_of_member hdm
    have hListed : key ∈ registeredKeys a.st := List.mem_flatMap.mpr ⟨dm, hdm, hKey⟩
    rw [← hRowKeys] at hKey
    obtain ⟨c, hc, rfl⟩ := List.mem_map.mp hKey
    refine Finmap.lookup_isSome.mp (a.installed_of_active (a.sound_binding h.sound) hKeys hExec
      a.replaced hn (fun hSuspended => ?_) hc (hValid _ hListed))
    rw [hStatus.mp hSuspended] at hActive
    cases hActive

/-- A key that left the access list has lost its address. -/
theorem released (h : Consistent env (validateWGPublicKey · = true) agent)
    (exec : List String → Bool) {key : String} (hBefore : key ∈ Acl.clientKeys agent.store.members)
    (hAfter : key ∉ Acl.clientKeys a.members) :
    (a.result exec).allocator.allocated.lookup key = none := by
  rw [a.result_allocated]
  split
  · rfl
  next hKept =>
    have hEmpty : key = "" :=
      not_not.mp fun hNe => hKept ((a.prune_mem_iff key).mpr ⟨hNe, hBefore, hAfter⟩)
    rw [hEmpty, a.keyless_binding h.keyless]

end Accepted

/-- The peers and the access list of a run agree when its commands succeed. -/
theorem consistent_run (env : Env) (pin : Option PublicKey) {inputs : List Input}
    (hExec : ∀ input ∈ inputs, input.CommandsSucceed) :
    Consistent env (validateWGPublicKey · = true)
      (run (Agent.step env) (Agent.fresh env pin) inputs) := by
  have hMeets : Meets (Agent.step env) (fun _ input => input.CommandsSucceed)
      (Agent.fresh env pin) inputs := meets_of_forall fun input hMem _ => hExec input hMem
  refine invariant_run _ (fun agent input h hInput => ?_) (consistent_fresh env _ pin) hMeets
  refine h.step keyClass_valid hInput fun msg req _ _ hInvalid hValid => ?_
  cases hInvalid.symm.trans hValid

/-- After every applied device state of a run whose commands succeed: if the registered
keys of the state are distinct and valid, the peers are those of the registered clients of
its members that are not suspended, and every key that left the access list is released. -/
theorem deauthorisation_complete (env : Env) (pin : Option PublicKey) (inputs : List Input)
    (hExec : ∀ input ∈ inputs, input.CommandsSucceed) (agent : Agent)
    (hAgent : agent = run (Agent.step env) (Agent.fresh env pin) inputs) (input : Input)
    (hInput : input.CommandsSucceed) (msg : TunnelMessage) (hEvent : input.event = .deviceState msg)
    (st : DeviceState) (hDecode : decodeDeviceState env msg = some st)
    (pending : List AdmittanceCertificate)
    (hApplied : (agent.handleDeviceState env input.now input.exec msg).2 = .applied pending)
    (hDistinct : (registeredKeys st).Nodup)
    (hValid : ∀ key ∈ registeredKeys st, validateWGPublicKey key = true) :
    (∀ key, key ∈ (agent.step env input).peers ↔
      ∃ dm ∈ st.members, suspends dm = false ∧ key ∈ memberKeys dm) ∧
    ∀ key ∈ Acl.clientKeys agent.store.members,
      key ∉ Acl.clientKeys (agent.step env input).store.members →
        (agent.step env input).allocator.allocated.lookup key = none := by
  have h : Consistent env (validateWGPublicKey · = true) agent :=
    hAgent ▸ consistent_run env pin hExec
  have hStep : agent.step env input = (agent.handleDeviceState env input.now input.exec msg).1 := by
    rw [Agent.step, hEvent]
  rcases handleDeviceState_cases env input.now input.exec agent msg with
    ⟨r, hr, hNot, _⟩ | ⟨c, e, hr, _⟩ | ⟨a, hr⟩ <;> rw [hr] at hApplied hStep
  · exact absurd hApplied (hNot pending)
  · cases hApplied
  · cases hDecode.symm.trans a.decodes
    rw [hStep]
    refine ⟨a.mem_result_peers h (keysApart_of_nodup hDistinct) hValid hInput, fun key hOld hNew => ?_⟩
    rw [a.result_members] at hNew
    exact a.released h input.exec hOld hNew

/-- The owner with one client. -/
def clientState (generation : Int) (wgPublicKey : String) : DeviceState :=
  { deviceID := "d", generation := generation
    members := [sampleOwner (sampleKey 1) [wgPublicKey]], apps := [] }

def replacedEnv : Env :=
  sampleEnv [clientState 1 (sampleWGKey 3), clientState 2 (sampleWGKey 4)]

def firstClient : Input :=
  .succeeding 0 (.deviceState (sampleState (clientState 1 (sampleWGKey 3))))

def secondClient : Input :=
  .succeeding 0 (.deviceState (sampleState (clientState 2 (sampleWGKey 4))))

theorem decode_secondClient :
    decodeDeviceState replacedEnv (sampleState (clientState 2 (sampleWGKey 4))) =
      some (clientState 2 (sampleWGKey 4)) := by
  refine decodeDeviceState_sample (reads_cons ?_ (reads_head _ _))
  decide +kernel

/-- The agent of the first client. -/
def firstClientAgent : Agent :=
  run (Agent.step replacedEnv) (sampleAgent replacedEnv) [firstClient]

/-- The second client has the only peer, and the address of the first is free. -/
theorem replaced_client_is_released :
    sampleWGKey 3 ∈ Acl.clientKeys firstClientAgent.store.members ∧
    (∀ key, key ∈ (firstClientAgent.step replacedEnv secondClient).peers ↔
      ∃ dm ∈ (clientState 2 (sampleWGKey 4)).members,
        suspends dm = false ∧ key ∈ memberKeys dm) ∧
    ∀ key ∈ Acl.clientKeys firstClientAgent.store.members,
      key ∉ Acl.clientKeys (firstClientAgent.step replacedEnv secondClient).store.members →
        (firstClientAgent.step replacedEnv secondClient).allocator.allocated.lookup key = none := by
  have hFirst : firstClientAgent = (completeApply replacedEnv (fun _ => true)
      ((sampleAgent replacedEnv).beginState replacedEnv 0 (clientState 1 (sampleWGKey 3)))).1 := by
    rw [firstClientAgent, run_cons, run_nil]
    exact step_sampleState (reads_head _ _) 0 _
  have hValues : sampleWGKey 3 ∈ Acl.clientKeys firstClientAgent.store.members ∧
      (completeApply replacedEnv (fun _ => true) (firstClientAgent.beginState replacedEnv 0
        (clientState 2 (sampleWGKey 4)))).2.isApplied = true := by
    have hBegin := beginState_sample [clientState 1 (sampleWGKey 3), clientState 2 (sampleWGKey 4)] 0
      (clientState 1 (sampleWGKey 3)) (sampleAgent replacedEnv) rfl rfl
      (by decide) rfl (.cons (verifyMember_sampleOwner ..) .nil)
    rw [replacedEnv] at hFirst hBegin ⊢
    rw [hFirst, hBegin, beginState_sample _ 0 (clientState 2 (sampleWGKey 4)) _ rfl rfl (by decide +kernel)
      rfl (.cons (verifyMember_sampleOwner ..) .nil)]
    decide +kernel
  refine ⟨hValues.1, ?_⟩
  · have hPending : ((firstClientAgent.handleDeviceState replacedEnv secondClient.now
        secondClient.exec (sampleState (clientState 2 (sampleWGKey 4)))).2).isApplied = true := by
      rw [handleDeviceState_of_decode decode_secondClient]
      exact hValues.2
    obtain ⟨pending, hApplied⟩ := DeviceStateResult.exists_applied hPending
    exact deauthorisation_complete replacedEnv (some (sampleKey 1)) [firstClient]
      (by simp [firstClient, Input.succeeding, Input.CommandsSucceed]) firstClientAgent rfl
      secondClient (fun _ => rfl) _ rfl (clientState 2 (sampleWGKey 4)) decode_secondClient pending
      hApplied (by decide +kernel) (by decide +kernel)

end Tunnel
