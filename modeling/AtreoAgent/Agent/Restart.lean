import AtreoAgent.Acl.Access
import AtreoAgent.Agent.Unpairing
import AtreoAgent.Tunnel.StoreChange

/-! A restart of the daemon. Every row that the agent can come to hold is one that the
re-verification at startup lets through, and the indexes built from the file are those the
store has, so the store that is loaded answers as the one that was saved. -/
namespace Lifecycle

open Codec Atreolink Acl WireGuard Tunnel Machine

variable {env : Env} {key : PublicKey}

/-- A store that startup will take over as it is. -/
structure Reloadable (env : Env) (key : PublicKey) (s : Store) : Prop where
  coherent : s.Coherent
  pinned : s.pinnedAdminPubKey = some key
  admitted : AdmittedRows env s.members

theorem reverifies_of_admitted {m : MemberACLEntry} (h : m.isAdmin = false → Admitted env m) :
    reverifies env m = true := by
  cases hRole : m.isAdmin with
  | true => rw [reverifies, hRole, Bool.true_or]
  | false =>
      obtain ⟨cert, hCert, hVerify⟩ := h hRole
      rw [reverifies, hRole, hCert]
      dsimp only
      rw [hVerify]
      rfl

section Startup

variable {exec : List String → Bool} {leases : List (String × String)} {files : Files}
  {store : Store} {agent : Agent}

theorem coherent_load {s : Store} (h : s.Coherent) (pin : File AdminPinFile)
    (acl : File PersistedState) : (s.load pin acl).1.Coherent := by
  unfold Store.load
  cases Store.loadPin pin with
  | error e => exact h
  | ok pub =>
      cases acl with
      | missing => rfl
      | invalid => exact h.of_rows rfl rfl rfl (List.forall₂_same.mpr fun _ _ => ⟨rfl, rfl, rfl⟩)
      | parsed state => exact Store.coherent_rebuildIndexes _

theorem coherent_dropMembersFailing {s : Store} (h : s.Coherent)
    (accepts : MemberACLEntry → Bool) : (s.dropMembersFailing accepts).1.Coherent := by
  unfold Store.dropMembersFailing
  dsimp only
  split
  · exact h
  · exact Store.coherent_rebuildIndexes _

theorem addClient_memberIDs (s : Store) (memberID : String) (rec : ClientRecord) :
    (s.addClient memberID rec).1.members.map (·.memberID) = s.members.map (·.memberID) := by
  have hStrip : (s.members.map (Store.strip memberID rec)).map (·.memberID) =
      s.members.map (·.memberID) := by
    rw [List.map_map]
    exact List.map_congr_left fun m _ => Store.strip_memberID memberID rec m
  have hUpdate : ∀ rows : List MemberACLEntry,
      (updateFirst (fun m => decide (m.memberID = memberID))
        (fun m => { m with clients := Store.putClient rec m.clients }) rows).map (·.memberID) =
          rows.map (·.memberID) := by
    intro rows
    induction rows with
    | nil => rfl
    | cons m ms ih =>
        rw [updateFirst]
        split
        · rfl
        · rw [List.map_cons, ih, List.map_cons]
  unfold Store.addClient
  split
  · rfl
  · dsimp only
    split
    · exact (hUpdate _).trans hStrip
    · exact hStrip

/-- Startup adds clients to members that have a row only. -/
theorem coherent_startup (hStore : store.Coherent)
    (h : startup env exec leases files store = some agent) : agent.store.Coherent := by
  have hLoaded : (loadStore env files store).Coherent := by
    unfold loadStore
    dsimp only
    split
    · exact coherent_dropMembersFailing (coherent_load hStore _ _) _
    · exact coherent_load hStore _ _
  -- The ids of the rows stay, so the member of each client keeps its row.
  have hClient : ∀ m ∈ (loadStore env files store).members, ∀ (u v : Agent) (c : ClientRecord),
      u.store.Coherent ∧ u.store.members.map (·.memberID) =
        (loadStore env files store).members.map (·.memberID) →
      reconcileClient env exec m.memberID u c = some v →
        v.store.Coherent ∧ v.store.members.map (·.memberID) =
          (loadStore env files store).members.map (·.memberID) := by
    rintro m hm u v c ⟨hu, hIDs⟩ hv
    rcases reconcileClient_store hv with hSame | ⟨rec, hAdded⟩
    · rw [hSame]
      exact ⟨hu, hIDs⟩
    · rw [hAdded]
      refine ⟨?_, (addClient_memberIDs u.store m.memberID rec).trans hIDs⟩
      rcases hAdd : u.store.addClient m.memberID rec with ⟨t, known⟩
      cases known with
      | true => exact .addClient hAdd
      | false =>
          rcases Store.addClient_eq_false hAdd with ⟨_, rfl⟩ | ⟨hUnknown, _⟩
          · exact hu
          · have hHas : m.memberID ∈ u.store.members.map (·.memberID) := by
              rw [hIDs]
              exact List.mem_map_of_mem hm
            obtain ⟨n, hn, hID⟩ := List.mem_map.mp hHas
            exact absurd hID (hUnknown n hn)
  unfold startup reconcilePeers at h
  refine (Fallible.foldlM_preserves (P := fun u : Agent => u.store.Coherent ∧
    u.store.members.map (·.memberID) = (loadStore env files store).members.map (·.memberID))
    (fun u hu m hm v hv => ?_) ⟨hLoaded, rfl⟩ h).1
  refine Fallible.foldlM_preserves (P := fun u : Agent => u.store.Coherent ∧
    u.store.members.map (·.memberID) = (loadStore env files store).members.map (·.memberID))
    (fun w hw c _ x hx => ?_) hu hv
  exact hClient m (List.mem_filter.mp hm).1 w x c hw hx

/-- With a pin the daemon starts with rows that have been verified. -/
theorem reloadable_startup (hStore : store.Coherent)
    (h : startup env exec leases files store = some agent)
    (hPin : agent.store.pinnedAdminPubKey = some key) : Reloadable env key agent.store := by
  obtain ⟨_, _, hAdmitted⟩ := loadStore_spec env files store
  obtain ⟨hKin, hSame⟩ := startup_spec h
  refine ⟨coherent_startup hStore h, hPin, (hAdmitted ?_).of_kin hKin⟩
  rw [← hSame, hPin]
  rfl

end Startup

theorem reloadable_step {agent : Agent} (h : Reloadable env key agent.store) (input : Input) :
    Reloadable env key (agent.step env input).store := by
  have hChange : StoreChange env agent input (agent.step env input).store :=
    storeChange_step h.coherent
  refine ⟨hChange.coherent h.coherent, (step_pinned env agent input).trans h.pinned, ?_⟩
  intro n hn
  rcases hChange.exists_row hn with ⟨msg, a, hNew⟩ | ⟨m, hm, hRow⟩
  · obtain ⟨_, _, _, hAuthorised⟩ := a.authorisedRow hNew
    exact hAuthorised.admitted
  · intro hMember
    rw [hRow] at hMember ⊢
    exact h.admitted m hm hMember

/-- The files of a store under the pin. -/
def savedFiles (key : PublicKey) (s : Store) : Files :=
  { acl := .parsed s.persisted, pin := .parsed ⟨key.base64⟩ }

/-- What is loaded is what was saved, but for the fraction of a second of the last apply. -/
theorem Reloadable.load {s : Store} (h : Reloadable env key s) :
    Store.new.load (savedFiles key s).pin (savedFiles key s).acl =
      ({ s with lastAppliedAt := s.persisted.lastAppliedAt }, .ok ()) := by
  obtain ⟨hTunnelIP, hMemberID, hEmail⟩ := Store.coherent_iff.mp h.coherent
  unfold Store.load savedFiles
  rw [loadPin_base64]
  dsimp only [Store.persisted, Store.rebuildIndexes, Store.new]
  rw [hTunnelIP, hMemberID, hEmail, h.pinned, Option.or_none]
  rfl

/-- The decisions of two stores are the same. -/
structure SameAnswers (s t : Store) : Prop where
  isAppAllowed : ∀ lower ip slug, t.isAppAllowed lower ip slug = s.isAppAllowed lower ip slug
  isPortAppAllowed : ∀ lower ip slug,
    t.isPortAppAllowed lower ip slug = s.isPortAppAllowed lower ip slug
  portGrants : t.portGrants = s.portGrants
  lookupByTunnelIP : ∀ ip, t.lookupByTunnelIP ip = s.lookupByTunnelIP ip
  lookupByMemberID : ∀ id, t.lookupByMemberID id = s.lookupByMemberID id
  lookupByEmail : ∀ lower email, t.lookupByEmail lower email = s.lookupByEmail lower email
  generation : t.generation = s.generation

/-- Nothing is asked of the time of the last apply. -/
theorem sameAnswers_lastAppliedAt (s : Store) (lastAppliedAt : Option Time) :
    SameAnswers s { s with lastAppliedAt := lastAppliedAt } :=
  ⟨fun _ _ _ => rfl, fun _ _ _ => rfl, rfl, fun _ => rfl, fun _ => rfl, fun _ _ => rfl, rfl⟩

/-- A saved store is loaded without an error, re-verification drops no row, and the
answers are the same. -/
structure Resumes (env : Env) (key : PublicKey) (s : Store) : Prop where
  pinned : s.pinnedAdminPubKey = some key
  loads : (Store.new.load (savedFiles key s).pin (savedFiles key s).acl).2 = .ok ()
  dropsNothing : ((Store.new.load (savedFiles key s).pin (savedFiles key s).acl).1.dropMembersFailing
    (reverifies env)).2 = []
  answers : SameAnswers s (loadStore env (savedFiles key s) Store.new)

theorem Reloadable.resumes {s : Store} (h : Reloadable env key s) : Resumes env key s := by
  have hNone : s.members.filter (! reverifies env ·) = [] := by
    refine List.filter_eq_nil_iff.mpr fun m hm => ?_
    rw [reverifies_of_admitted (h.admitted m hm)]
    exact Bool.false_ne_true
  have hDrop : ({ s with lastAppliedAt := s.persisted.lastAppliedAt } : Store).dropMembersFailing
      (reverifies env) = ({ s with lastAppliedAt := s.persisted.lastAppliedAt }, []) := by
    unfold Store.dropMembersFailing
    dsimp only
    rw [if_pos hNone]
  refine ⟨h.pinned, ?_, ?_, ?_⟩
  · rw [h.load]
  · rw [h.load, hDrop]
  · unfold loadStore
    dsimp only
    have hSome : s.pinnedAdminPubKey.isSome = true := by
      rw [h.pinned]
      rfl
    rw [h.load]
    dsimp only
    rw [if_pos hSome, hDrop]
    exact sameAnswers_lastAppliedAt s _

/-- A pairing leaves the process stopped, or with a store whose indexes are those of its
rows. -/
theorem paired_process (env : Env) (flow : PairingFlow) (files : Files) (r : PairResult)
    (writes : Writes) :
    (Installation.step env ⟨files, .stopped⟩ (flow.step r writes)).process = .stopped ∨
      ∃ store, (Installation.step env ⟨files, .stopped⟩ (flow.step r writes)).process =
        .paired store ∧ store.Coherent := by
  cases flow with
  | command => exact .inl rfl
  | daemon =>
      have hOutcome := pinOwner_outcome files Store.new r r.ownerEntry writes
      dsimp only [PairingFlow.step, Installation.step]
      generalize pinOwner files Store.new r r.ownerEntry writes = result at hOutcome
      cases hOutcome with
      | refused => exact .inl rfl
      | conflict pinned hPin => exact .inl rfl
      | unlisted pinned hPin hOwner =>
          obtain ⟨_, _, rfl⟩ := setPinnedAdminPublicKey_eq_ok hPin
          exact .inr ⟨_, rfl, rfl⟩
      | listed pinned t hPin hOwner hUpsert =>
          obtain ⟨_, _, hStore⟩ := Fallible.bind_eq_ok.mp hUpsert
          cases hStore
          exact .inr ⟨_, rfl, Store.coherent_rebuildIndexes _⟩

/-- Whatever a freshly paired agent handles, a restart takes over its store. -/
theorem restart_resumes (flow : PairingFlow) (files : Files) (r : PairResult) (writes : Writes)
    (exec : List String → Bool) (leases : List (String × String)) (saved : Bool) {paired : Agent}
    (hPaired : (run (Installation.step env) ⟨files, .stopped⟩
      [flow.step r writes, .start exec leases saved]).process = .running paired)
    (hPin : paired.store.pinnedAdminPubKey = some key) (inputs : List Input) :
    Resumes env key (run (Agent.step env) paired inputs).store := by
  have hStart : Reloadable env key paired.store := by
    have hProcess := paired_process env flow files r writes
    rw [run_cons, run_cons, run_nil] at hPaired
    generalize Installation.step env ⟨files, .stopped⟩ (flow.step r writes) = inst
      at hPaired hProcess
    have hIdle : ∀ agent, inst.process ≠ .running agent := by
      rcases hProcess with hStopped | ⟨store, hStore, _⟩
      · rw [hStopped]
        nofun
      · rw [hStore]
        nofun
    have hCoherent : inst.process.storeAtLoad.Coherent := by
      rcases hProcess with hStopped | ⟨store, hStore, hCoherent⟩
      · rw [hStopped]
        exact Store.coherent_new
      · rw [hStore]
        exact hCoherent
    exact reloadable_startup hCoherent (startup_of_start hIdle hPaired) hPin
  exact (invariant_always (fun agent : Agent => Reloadable env key agent.store)
    (fun _ input h => reloadable_step h input) hStart inputs).resumes

/-- The owner pairs, the daemon starts and a member joins with an invite. -/
theorem joined_member_resumes :
    ∃ paired, (run (Installation.step joiningEnv) ⟨⟨.missing, .missing⟩, .stopped⟩
        [PairingFlow.daemon.step (samplePairing (sampleKey 1) "a") ⟨true, true⟩,
          .start (fun _ => true) [] true]).process = .running paired ∧
      paired.store.pinnedAdminPubKey = some (sampleKey 1) ∧
      (paired.step joiningEnv joiningInput).store.members.length = 2 ∧
      Resumes joiningEnv (sampleKey 1)
        (run (Agent.step joiningEnv) paired [joiningInput]).store := by
  have hRows : joinedAgent.store.members.length = 2 := by decide +kernel
  refine ⟨pairedAgent, pairedInstallation_running, pairedAgent_pin, ?_,
    restart_resumes .daemon _ _ _ _ _ _ pairedInstallation_running pairedAgent_pin [joiningInput]⟩
  rw [step_joiningInput]
  exact hRows

end Lifecycle
