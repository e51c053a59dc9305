import AtreoAgent.Acl.Indexes
import AtreoAgent.Agent.Admissions
import AtreoAgent.Agent.Gateway
import AtreoAgent.Tunnel.Leases

/-! Applying a device state again. The second apply takes other branches than the first: a
certificate that was minted is found in the access list, every key holds its address, and no
key has left. Each part of the agent is a fixed point of the second apply. -/
namespace Tunnel

open Codec Json Atreolink WireGuard Fallible

section Verification

variable {env : Env} {store other : Acl.Store} {ownerPub : PublicKey} {now : Time} {dm : DSMember}

/-- Once the access list has the certificate a member was admitted with, the member is
admitted with it again. -/
theorem verifyAdmission_again {admission : Admission}
    (h : verifyAdmission env store ownerPub now dm = .ok admission)
    (hKept : dm.isAdmin = false → existingAdmittance other dm.memberID = admission.admittance) :
    ∃ again, verifyAdmission env other ownerPub now dm = .ok again ∧
      again.admittance = admission.admittance ∧ again.initialAppIDs = admission.initialAppIDs := by
  cases hAdmin : dm.isAdmin with
  | true =>
      unfold verifyAdmission at h ⊢
      rw [if_pos hAdmin] at h ⊢
      exact ⟨admission, h, rfl, rfl⟩
  | false =>
      cases hInbound : dm.admittance with
      | some cert =>
          -- The store is not asked.
          refine ⟨admission, ?_, rfl, rfl⟩
          unfold verifyAdmission at h ⊢
          rw [hInbound] at h ⊢
          exact h
      | none =>
          obtain ⟨cert, hCert, hApps, hCases⟩ := verifyAdmission_eq_ok h hAdmin
          have hVerifies : verifyAdmittanceCertificate env cert dm.memberID dm.identityKey
              env.agentKey.base64 = .ok () := by
            rcases hCases with ⟨_, hVerifies⟩ | ⟨_, hVerifies⟩ | ⟨_, _, hAdmit⟩
            · exact hVerifies
            · exact hVerifies
            · obtain ⟨_, _, _, hVerifies⟩ := admitMember_eq_ok hAdmit
              exact hVerifies
          refine ⟨.ofCertificate cert true, ?_, hCert.symm, hApps.symm⟩
          unfold verifyAdmission
          rw [if_neg (by simp [hAdmin]), hInbound, hKept hAdmin, hCert]
          exact bind_eq_ok.mpr ⟨(), mapError_eq_ok.mpr hVerifies, rfl⟩

/-- Apart from the certificate a member is verified without the access list. -/
theorem verifyMember_again {vApps : List App} {v : VerifiedMember}
    (h : verifyMember env store ownerPub now vApps dm = .ok v)
    (hKept : dm.isAdmin = false → existingAdmittance other dm.memberID = v.entry.admittance) :
    ∃ again, verifyMember env other ownerPub now vApps dm = .ok again ∧ v.entry = again.entry := by
  obtain ⟨admission, identity, status, permitted, clients, hAdmission, hIdentity, hStatus,
    hPermitted, hClients, hEntry⟩ := verifyMember_eq_ok h
  rw [hEntry] at hKept ⊢
  obtain ⟨again, hAgain, hCert, hApps⟩ := verifyAdmission_again hAdmission hKept
  refine ⟨_, bind_eq_ok.mpr ⟨again, hAgain, bind_eq_ok.mpr ⟨identity, require_eq_ok.mpr hIdentity,
    bind_eq_ok.mpr ⟨status, hStatus, bind_eq_ok.mpr ⟨permitted, hPermitted,
      bind_eq_ok.mpr ⟨clients, hClients, rfl⟩⟩⟩⟩⟩, ?_⟩
  rw [hCert, hApps]

end Verification

namespace Accepted

variable {env : Env} {now : Time} {agent : Agent} {msg : TunnelMessage}
  (a : Accepted env now agent msg) (exec : List String → Bool)

theorem result_apps : (a.result exec).store.apps = a.verified.apps := by
  rw [a.result_store]
  exact a.store_members.2

theorem result_pinned :
    (a.result exec).store.pinnedAdminPubKey = agent.store.pinnedAdminPubKey := by
  rw [a.result_store, (Acl.Store.reconcile_eq_ok a.reconciles).2.1]
  rfl

theorem coherent_result : (a.result exec).store.Coherent := by
  rw [a.result_store, (Acl.Store.reconcile_eq_ok a.reconciles).2.1]
  exact (Acl.Store.coherent_rebuildIndexes _).setAppliedGeneration _ _

theorem members_memberID : a.members.map (·.memberID) = a.st.members.map (·.memberID) := by
  have hVerified : a.st.members.map (·.memberID) = a.entries.map (·.memberID) := by
    rw [Checked.entries, List.map_map]
    exact map_eq_of_forall₂ a.verifiedMembers fun dm v h => (entry_of_verifyMember h).1.symm
  have hRows : a.entries.map (·.memberID) = a.members.map (·.memberID) :=
    map_eq_of_forall₂ a.addressedRows fun m n h => by rw [h.1]
  rw [hVerified, hRows]

/-- The new access list has the certificates that the members were admitted with. -/
theorem existingAdmittance_result (hIDs : (a.st.members.map (·.memberID)).Nodup)
    {v : VerifiedMember} (hv : v ∈ a.verified.members) :
    existingAdmittance (a.result exec).store v.entry.memberID = v.entry.admittance := by
  obtain ⟨n, hn, hRow⟩ := exists_right a.addressedRows (List.mem_map_of_mem hv)
  have hID : n.memberID = v.entry.memberID := by rw [hRow.1]
  have hCert : n.admittance = v.entry.admittance := by rw [hRow.1]
  rw [← a.members_memberID] at hIDs
  have hFound : (a.result exec).store.lookupByMemberID v.entry.memberID = some n := by
    rw [(a.coherent_result exec).lookupByMemberID_eq, a.result_members]
    refine Acl.rowAt_of_unique hn (List.mem_singleton.mpr hID.symm) fun n' hn' hID' => ?_
    exact List.inj_on_of_nodup_map hIDs hn' hn ((List.mem_singleton.mp hID').symm.trans hID.symm)
  rw [existingAdmittance, hFound, Option.bind_some, hCert]

/-- On the new access list the state verifies again, to the same rows. -/
theorem verifies_again (hIDs : (a.st.members.map (·.memberID)).Nodup) :
    ∃ vs, verifyState env (a.result exec).store a.ownerPub now a.st = .ok ⟨a.verified.apps, vs⟩ ∧
      vs.map (·.entry) = a.entries := by
  obtain ⟨vApps, hApps, hRest⟩ := bind_eq_ok.mp a.verifies
  obtain ⟨vMembers, _, hState⟩ := bind_eq_ok.mp hRest
  have hSame : a.verified.apps = vApps := by rw [← Except.ok.inj hState]
  have hMembers : List.Forall₂ (fun dm v => ∃ again,
      verifyMember env (a.result exec).store a.ownerPub now a.verified.apps dm = .ok again ∧
        v.entry = again.entry) a.st.members a.verified.members := by
    rw [List.forall₂_iff_zip]
    refine ⟨a.verifiedMembers.length_eq, fun {dm v} hPair => ?_⟩
    have hVerify := List.forall₂_zip a.verifiedMembers hPair
    refine verifyMember_again hVerify fun _ => ?_
    rw [← (entry_of_verifyMember hVerify).1]
    exact a.existingAdmittance_result exec hIDs (List.of_mem_zip hPair).2
  obtain ⟨vs, hAgain, hEntries⟩ := exists_between hMembers
  refine ⟨vs, bind_eq_ok.mpr ⟨vApps, hApps, bind_eq_ok.mpr ⟨vs, ?_, ?_⟩⟩, ?_⟩
  · rw [← hSame]
    exact each_eq_ok.mpr hAgain
  · rw [hSame]
  · exact (map_eq_of_forall₂ hEntries fun v again h => h).symm

/-- Every key of the new rows holds its address, so the second binding loop changes
nothing. -/
theorem binds_again (leases : List (String × String)) :
    bindMembers env.subnet leases (a.result exec).allocator a.entries =
      ((a.result exec).allocator, .ok a.bound) := by
  refine bindMembers_of_boundTo env.subnet leases ?_
  have hBound : List.Forall₂ (RowBoundTo a.binding.1) a.entries a.bound := boundTo_bindMembers a.binds
  rw [List.forall₂_iff_zip]
  refine ⟨hBound.length_eq, fun {m n} hPair => ?_⟩
  obtain ⟨hRow, hClients⟩ := List.forall₂_zip hBound hPair
  refine ⟨hRow, List.forall₂_iff_zip.mpr ⟨hClients.length_eq, fun {c d} hRecords => ?_⟩⟩
  refine (List.forall₂_zip hClients hRecords).mono fun ip _ hHeld => ?_
  -- A key of the state is listed, so it is not pruned.
  have hListed : c.wgPublicKey ∈ Acl.clientKeys a.members := by
    rw [a.clientKeys_members, ← a.clientKeys_entries]
    exact Acl.mem_clientKeys.mpr
      ⟨m, (List.of_mem_zip hPair).1, c, (List.of_mem_zip hRecords).1, rfl⟩
  rw [a.result_allocated_of_listed exec hListed, hHeld]

theorem reconciles_again :
    (a.result exec).store.reconcile a.members a.verified.apps =
      .ok ((a.result exec).store, ⟨[], [], []⟩) := by
  rw [← a.result_members exec, ← a.result_apps exec]
  refine (a.coherent_result exec).reconcile_self ?_
  have hValid := (Acl.Store.reconcile_eq_ok a.reconciles).1
  rw [a.result_members]
  unfold Acl.Store.validateAdminPin at hValid ⊢
  rw [a.result_pinned]
  exact hValid

/-- An accepted device state is accepted again. -/
theorem exists_again (hIDs : (a.st.members.map (·.memberID)).Nodup) :
    ∃ b : Accepted env now (a.result exec) msg,
      b.st = a.st ∧ b.replaced = a.result exec ∧ b.members = a.members ∧
        b.removed.clientKeys = [] := by
  obtain ⟨vs, hVerifies, hEntries⟩ := a.verifies_again exec hIDs
  have hNewer : (a.result exec).store.generation ≤ a.st.generation := by
    rw [a.result_store]
    exact le_refl _
  let c : Checked env now (a.result exec) msg :=
    ⟨a.st, a.ownerPub, ⟨a.verified.apps, vs⟩, a.decodes, a.device, hNewer,
      (a.result_pinned exec).trans a.pinned, hVerifies⟩
  have hBinding : c.binding = ((a.result exec).allocator, .ok a.bound) := by
    rw [← a.binds_again exec c.leases, ← hEntries]
    rfl
  refine ⟨⟨c, a.bound, (a.result exec).store, ⟨[], [], []⟩, congrArg Prod.snd hBinding,
    a.reconciles_again exec⟩, rfl, ?_, rfl, rfl⟩
  have hAllocator : c.binding.1 = (a.result exec).allocator := congrArg Prod.fst hBinding
  rw [replaced]
  dsimp only
  rw [hAllocator]

/-- Marking the time of the apply a second time changes nothing. -/
theorem finishApply_again {application : Application}
    (hGeneration : application.generation = a.st.generation) (hNow : application.now = now) :
    (a.result exec).finishApply application = a.result exec := by
  rw [Agent.finishApply, hGeneration, hNow]
  rfl

/-- Applying an accepted device state again changes nothing. -/
theorem result_again (hExec : ∀ command, exec command = true)
    (hIDs : (a.st.members.map (·.memberID)).Nodup) :
    ∃ b : Accepted env now (a.result exec) msg, b.st = a.st ∧ b.result exec = a.result exec := by
  obtain ⟨b, hState, hReplaced, hMembers, hRemoved⟩ := a.exists_again exec hIDs
  refine ⟨b, hState, ?_⟩
  have hOps : b.application.ops = a.members.flatMap memberOps := by
    rw [application, hMembers, hRemoved]
    rfl
  have hNoPrune : ∀ k, .prune k ∉ a.members.flatMap memberOps := by
    intro k hPrune
    rw [← hOps, b.prune_mem_iff, a.result_members, hMembers] at hPrune
    exact hPrune.2.2 hPrune.2.1
  -- The operations of the second apply are the last ones of the first.
  have hPeers : (a.result exec).peers = ((a.members.flatMap memberOps).foldl
      (Agent.perform env exec) ((a.removed.clientKeys.map PeerOp.prune).foldl
        (Agent.perform env exec) a.replaced)).peers := by
    rw [← List.foldl_append]
    rfl
  have hPerformed : b.performed exec = a.result exec := by
    rw [performed, hOps, hReplaced, foldl_perform_eq hNoPrune,
      foldl_perform_peers_again hExec _ hPeers]
  rw [result, hPerformed]
  exact a.finishApply_again exec (congrArg DeviceState.generation hState) rfl

end Accepted

namespace Gateway

variable {H : Type} [DecidableEq H] {host : Firewall.Host H} {faults : Firewall.Faults H}

/-- A firewall that has the grants of the access list is left alone. -/
theorem reconcile_of_grants {g : Gateway H}
    (h : g.manager.portGrants = Firewall.aclGrants g.agent.store) : g.reconcile host faults = g := by
  unfold reconcile
  rw [Firewall.Manager.reconcileFirewallGrants, Firewall.Manager.setPortGrants,
    if_pos (Firewall.grantsEqual_iff.mpr h)]

/-- A device state that is applied a second time, at the same time and with commands that
succeed, is applied again, and the agent and its firewall stay as they are. -/
theorem reapply_unchanged (env : Env) (host : Firewall.Host H) (g : Gateway H)
    (i j : GatewayInput H) (st : DeviceState) (hEvent : j.input.event = i.input.event)
    (hNow : j.input.now = i.input.now) (hFirst : i.input.CommandsSucceed)
    (hSecond : j.input.CommandsSucceed) (hIDs : (st.members.map (·.memberID)).Nodup)
    (hApplied : g.agent.appliedState env i.input = some st) :
    (g.step env host i).agent.appliedState env j.input = some st ∧
      (g.step env host i).step env host j = g.step env host i := by
  obtain ⟨msg, hMsg, a, rfl, hStep⟩ := exists_accepted hApplied
  have hInput : j.input = i.input := by
    have hExec : j.input.exec = i.input.exec := funext fun command => by
      rw [hSecond command, hFirst command]
    rcases hj : j.input with ⟨now, exec, event⟩
    rw [hj] at hEvent hNow hExec
    subst hEvent hNow hExec
    rfl
  obtain ⟨b, hState, hResult⟩ := a.result_again i.input.exec hFirst hIDs
  have hAgent : (g.step env host i).agent = a.result i.input.exec := by rw [step_agent, hStep]
  have hAgain : (g.step env host i).agent.appliedState env j.input = some a.st := by
    rw [hAgent, hInput, appliedState_of_accepted hMsg b, hState]
  refine ⟨hAgain, ?_⟩
  have hSame : (g.step env host i).agent.step env j.input = (g.step env host i).agent := by
    rw [hAgent, hInput]
    obtain ⟨msg', hMsg', b', _, hStep'⟩ := exists_accepted (appliedState_of_accepted hMsg b)
    cases hMsg.symm.trans hMsg'
    rw [hStep', Subsingleton.elim b' b, hResult]
  have hGrants : (g.step env host i).manager.portGrants =
      Firewall.aclGrants (g.step env host i).agent.store := by
    rw [step_portGrants hApplied, step_agent]
  generalize g.step env host i = after at hAgain hSame hGrants ⊢
  rw [step, hAgain, Option.isSome_some, if_pos rfl, hSame]
  exact reconcile_of_grants hGrants

/-- The gateway of a paired agent, over tables without rules. -/
def pairedGateway : Gateway Empty :=
  start Firewall.sampleHost Firewall.Faults.none Firewall.sampleConfig
    (fun _ => Firewall.openTable) Lifecycle.pairedAgent

/-- The gateway after the state with the member that joins. -/
def joinedGateway : Gateway Empty :=
  pairedGateway.step Lifecycle.joiningEnv Firewall.sampleHost (succeeding Lifecycle.joiningInput)

/-- The first apply mints a certificate for the member, the second one keeps it. -/
theorem joining_reapplied :
    (∃ m ∈ joinedGateway.agent.store.members, m.isAdmin = false ∧ m.admittance.isSome = true) ∧
      joinedGateway.step Lifecycle.joiningEnv Firewall.sampleHost
        (succeeding Lifecycle.joiningInput) = joinedGateway := by
  have hAgent : joinedGateway.agent = Lifecycle.joinedAgent := by
    rw [joinedGateway, step_agent]
    exact Lifecycle.step_joiningInput
  have hApplied : (completeApply Lifecycle.joiningEnv (fun _ => true)
      (Lifecycle.pairedAgent.beginState Lifecycle.joiningEnv 0
        Lifecycle.joiningState)).2.isApplied = true := by
    rw [Lifecycle.beginState_joining]
    decide +kernel
  refine ⟨?_, (reapply_unchanged Lifecycle.joiningEnv Firewall.sampleHost pairedGateway _ _
    Lifecycle.joiningState rfl rfl (fun _ => rfl) (fun _ => rfl) (by decide) ?_).2⟩
  · rw [hAgent]
    decide +kernel
  · exact appliedState_sample (reads_head Lifecycle.joiningState []) hApplied

end Gateway

end Tunnel
