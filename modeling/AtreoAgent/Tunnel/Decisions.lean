import AtreoAgent.Machine.Run
import AtreoAgent.Tunnel.Authorised

/-! Owner decisions over time. A device state replaces the access list with what its own
envelopes say: nothing of an earlier one is remembered, and the generation is not
signed. Whether a decision stands is up to the states the relay sends. -/
namespace Tunnel

open Codec Json Atreolink WireGuard Fallible Machine

variable {env : Env}

/-- The device state carries a status of the member, signed by the owner. -/
def CarriesStatus (env : Env) (ownerPub : PublicKey) (st : DeviceState) (memberID status : String)
    (timestamp : Int) : Prop :=
  ∃ dm ∈ st.members, dm.memberID = memberID ∧ ∃ e p, dm.statusEnvelope = some e ∧
    PayloadType.memberStatus.unmarshal e.payload = some p ∧ Signed env ownerPub e ∧
    p.intent = statusIntent env p ∧ p.memberID = memberID ∧ p.status = status ∧
    p.timestamp = timestamp

/-- The device state carries permissions of the member, signed by the owner. -/
def CarriesPermissions (env : Env) (ownerPub : PublicKey) (st : DeviceState) (memberID : String)
    (ids : List String) (timestamp : Int) : Prop :=
  ∃ dm ∈ st.members, dm.memberID = memberID ∧ ∃ e p, dm.permissionsEnvelope = some e ∧
    PayloadType.memberPermissions.unmarshal e.payload = some p ∧ Signed env ownerPub e ∧
    p.intent = permissionsIntent env p ∧ p.memberID = memberID ∧ p.allowedAppIDs.getD [] = ids ∧
    p.timestamp = timestamp

theorem run_pinned (env : Env) (agent : Agent) (inputs : List Input) :
    (run (Agent.step env) agent inputs).store.pinnedAdminPubKey =
      agent.store.pinnedAdminPubKey := by
  induction inputs generalizing agent with
  | nil => rfl
  | cons input inputs ih => rw [run_cons, ih, step_pinned]

def statusPayload (dm : DSMember) : Option MemberStatusPayload :=
  dm.statusEnvelope.bind fun e => PayloadType.memberStatus.unmarshal e.payload

def permissionsPayload (dm : DSMember) : Option MemberPermissionsPayload :=
  dm.permissionsEnvelope.bind fun e => PayloadType.memberPermissions.unmarshal e.payload

/-- The second row leaves out no envelope of the first and has none that is older; a status
with the same timestamp is the same. -/
structure Follows (om dm : DSMember) : Prop where
  status : ∀ p, statusPayload om = some p → ∃ q, statusPayload dm = some q ∧
    (p.timestamp < q.timestamp ∨ p.timestamp = q.timestamp ∧ q.status = p.status)
  permissions : ∀ p, permissionsPayload om = some p → ∃ q, permissionsPayload dm = some q ∧
    p.timestamp ≤ q.timestamp

theorem Follows.refl (dm : DSMember) : Follows dm dm :=
  ⟨fun p hp => ⟨p, hp, Or.inr ⟨rfl, rfl⟩⟩, fun p hp => ⟨p, hp, Int.le_refl _⟩⟩

variable {om dm : DSMember} {agent : Agent}

theorem Follows.trans {mm : DSMember} (hFirst : Follows om mm) (hSecond : Follows mm dm) :
    Follows om dm := by
  constructor
  · intro p hp
    obtain ⟨q, hq, hNewer⟩ := hFirst.status p hp
    obtain ⟨r, hr, hNewest⟩ := hSecond.status q hq
    refine ⟨r, hr, ?_⟩
    rcases hNewer with hNewer | ⟨hSame, hStatus⟩
    · rcases hNewest with hNewest | ⟨hEqual, _⟩
      · exact Or.inl (Int.lt_trans hNewer hNewest)
      · exact Or.inl (hEqual ▸ hNewer)
    · rw [hSame, ← hStatus]
      exact hNewest
  · intro p hp
    obtain ⟨q, hq, hNewer⟩ := hFirst.permissions p hp
    obtain ⟨r, hr, hNewest⟩ := hSecond.permissions q hq
    exact ⟨r, hr, Int.le_trans hNewer hNewest⟩

/-- The agent and, for each member, its rows in the last applied state that had it. -/
structure History where
  agent : Agent
  latest : String → List DSMember

def rowsOf (st : DeviceState) (memberID : String) : List DSMember :=
  st.members.filter (·.memberID = memberID)

namespace History

def start (agent : Agent) : History := ⟨agent, fun _ => []⟩

/-- The rows after an input that may apply a device state. -/
def remember (latest : String → List DSMember) : Option DeviceState → String → List DSMember
  | none, memberID => latest memberID
  | some st, memberID =>
      if rowsOf st memberID = [] then latest memberID else rowsOf st memberID

def step (env : Env) (h : History) (input : Input) : History :=
  { agent := h.agent.step env input
    latest := remember h.latest (h.agent.appliedState env input) }

theorem latest_step (env : Env) (h : History) (input : Input) :
    (h.step env input).latest = remember h.latest (h.agent.appliedState env input) := rfl

theorem run_agent (env : Env) (h : History) (inputs : List Input) :
    (run (step env) h inputs).agent = run (Agent.step env) h.agent inputs := by
  induction inputs generalizing h with
  | nil => rfl
  | cons input inputs ih => rw [run_cons, ih, run_cons, step]

/-- The rows of a device state that passes its checks follow those last applied. -/
def NotOlder (env : Env) (h : History) (input : Input) : Prop :=
  ∀ msg st verified, input.event = .deviceState msg → decodeDeviceState env msg = some st →
    h.agent.checkState env input.now st = .ok (some verified) →
    ∀ dm ∈ st.members, ∀ om ∈ h.latest dm.memberID, Follows om dm

variable {om : DSMember} {h : History} {input : Input}

theorem NotOlder.follows (hInput : NotOlder env h input) {st : DeviceState}
    (hApplied : h.agent.appliedState env input = some st) {dm : DSMember} (hdm : dm ∈ st.members)
    (hom : om ∈ h.latest dm.memberID) : Follows om dm := by
  obtain ⟨msg, hEvent, a, rfl, _⟩ := exists_accepted hApplied
  exact hInput msg a.st a.verified hEvent a.decodes a.check_eq dm hdm om hom

/-- A row that follows the given one is the last applied for its member. -/
def Kept (om : DSMember) (h : History) : Prop := ∃ lm ∈ h.latest om.memberID, Follows om lm

theorem exists_of_mem_remember {latest : String → List DSMember} {applied : Option DeviceState}
    {memberID : String} (h : om ∈ remember latest applied memberID) :
    om ∈ latest memberID ∨ ∃ st, applied = some st ∧ om ∈ st.members := by
  cases applied with
  | none => exact Or.inl h
  | some st =>
      dsimp only [remember] at h
      split at h
      · exact Or.inl h
      · exact Or.inr ⟨st, rfl, List.mem_of_mem_filter h⟩

theorem kept_of_applied {st : DeviceState} (hApplied : h.agent.appliedState env input = some st)
    (hom : om ∈ st.members) : Kept om (h.step env input) := by
  have hRow : om ∈ rowsOf st om.memberID := List.mem_filter.mpr ⟨hom, by simp⟩
  refine ⟨om, ?_, Follows.refl om⟩
  rw [step, hApplied]
  dsimp only [remember]
  rw [if_neg (List.ne_nil_of_mem hRow)]
  exact hRow

theorem Kept.step (hKept : Kept om h) (hInput : NotOlder env h input) :
    Kept om (h.step env input) := by
  obtain ⟨lm, hlm, hFollows⟩ := hKept
  unfold Kept
  rw [History.step]
  cases hApplied : h.agent.appliedState env input with
  | none => exact ⟨lm, hlm, hFollows⟩
  | some st =>
      dsimp only [remember]
      split
      · exact ⟨lm, hlm, hFollows⟩
      next hRows =>
        -- The rows of the member are replaced, and each follows the one before.
        obtain ⟨dm, hdm⟩ := List.exists_mem_of_ne_nil _ hRows
        obtain ⟨hMem, hID⟩ := List.mem_filter.mp hdm
        have hSame : dm.memberID = om.memberID := of_decide_eq_true hID
        exact ⟨dm, hdm, hFollows.trans (hInput.follows hApplied hMem (hSame ▸ hlm))⟩

end History

/-- The rows of a later applied state follow those of an earlier one. -/
theorem follows_of_notOlder {inputs : List Input}
    (hInputs : Meets (History.step env) (History.NotOlder env) (.start agent) inputs)
    {i j : Nat} (hLt : i < j) {old st : DeviceState}
    (hOld : At (Agent.step env) agent inputs i
      fun agent input => agent.appliedState env input = some old)
    (hNew : At (Agent.step env) agent inputs j
      fun agent input => agent.appliedState env input = some st) (hom : om ∈ old.members)
    (hdm : dm ∈ st.members) (hID : dm.memberID = om.memberID) : Follows om dm := by
  obtain ⟨first, hFirst, hFirstApplied⟩ := hOld
  obtain ⟨second, hSecond, hSecondApplied⟩ := hNew
  have hAgent : ∀ n, (run (History.step env) (.start agent) (inputs.take n)).agent =
      run (Agent.step env) agent (inputs.take n) := fun n => History.run_agent env _ _
  rw [← hAgent] at hFirstApplied hSecondApplied
  have hThen : History.Kept om
      (run (History.step env) (.start agent) (inputs.take (i + 1))) := by
    rw [run_take_succ hFirst]
    exact History.kept_of_applied hFirstApplied hom
  obtain ⟨lm, hlm, hFollows⟩ :=
    invariant_since (History.Kept om) (fun _ _ hKept hInput => hKept.step hInput) hInputs hLt
      hThen
  exact hFollows.trans ((hInputs.getElem hSecond).follows hSecondApplied hdm (hID ▸ hlm))

/-- A row of an applied state is suspended if its envelope follows one that suspends, or the
state carries a newer one. -/
theorem Accepted.keeps_suspension {now : Time} {msg : TunnelMessage}
    (a : Accepted env now agent msg) {m : MemberACLEntry} (hdm : dm ∈ a.st.members)
    {v : VerifiedMember} (hRow : AddressedRow v.entry m)
    (hVerify : verifyMember env agent.store a.ownerPub now a.verified.apps dm = .ok v)
    (hFollows : Follows om dm) {p : MemberStatusPayload} (hp : statusPayload om = some p)
    (hSuspended : p.status = "suspended") :
    m.status = "suspended" ∨
      ∃ u, p.timestamp < u ∧ CarriesStatus env a.ownerPub a.st dm.memberID "active" u := by
  obtain ⟨_, _, status, _, _, _, _, hStatus, _, _, hEntry⟩ := verifyMember_eq_ok hVerify
  have hSame : m.status = status := by rw [hRow.1, hEntry]
  obtain ⟨q, hq, hNewer⟩ := hFollows.status p hp
  obtain ⟨e, he, hPayload⟩ := Option.bind_eq_some_iff.mp hq
  rcases verifyStatus_eq_ok hStatus with
    ⟨hNone, _⟩ | ⟨_, _, hEnvelope, hRead, hAddress, hValid, hAuth, rfl⟩
  · cases hNone.symm.trans he
  · cases hEnvelope.symm.trans he
    cases hRead.symm.trans hPayload
    rcases hNewer with hNewer | ⟨_, hAgain⟩
    · rcases hValid with hActive | hStill
      · obtain ⟨hIntent, hSigned⟩ := signed_of_verifyAuthorization hAuth
        exact Or.inr ⟨q.timestamp, hNewer, dm, hdm, rfl, e, q, he, hPayload, hSigned, hIntent,
          hAddress, hActive, rfl⟩
      · exact Or.inl (hSame.trans hStill)
    · exact Or.inl (hSame.trans (hAgain.trans hSuspended))

/-- The apps of a row of an applied state are those of an envelope that is no older than one
it follows. -/
theorem Accepted.keeps_permissions {now : Time} {msg : TunnelMessage}
    (a : Accepted env now agent msg) {m : MemberACLEntry} (hdm : dm ∈ a.st.members)
    {v : VerifiedMember} (hRow : AddressedRow v.entry m)
    (hVerify : verifyMember env agent.store a.ownerPub now a.verified.apps dm = .ok v)
    (hFollows : Follows om dm) {p : MemberPermissionsPayload}
    (hp : permissionsPayload om = some p) :
    ∃ ids u, p.timestamp ≤ u ∧ CarriesPermissions env a.ownerPub a.st dm.memberID ids u ∧
      m.allowedApps = ids.filterMap (appByID a.verified.apps) := by
  obtain ⟨admission, _, _, permitted, _, _, _, _, hPermitted, _, hEntry⟩ := verifyMember_eq_ok hVerify
  have hSame : m.allowedApps = allowedApps a.verified.apps dm admission.initialAppIDs permitted := by
    rw [hRow.1, hEntry]
  obtain ⟨q, hq, hNewer⟩ := hFollows.permissions p hp
  obtain ⟨e, he, hPayload⟩ := Option.bind_eq_some_iff.mp hq
  rcases verifyPermissions_eq_ok hPermitted with
    ⟨hNone, _⟩ | ⟨_, _, hEnvelope, hRead, hAddress, hAuth, rfl⟩
  · cases hNone.symm.trans he
  · cases hEnvelope.symm.trans he
    cases hRead.symm.trans hPayload
    obtain ⟨hIntent, hSigned⟩ := signed_of_verifyAuthorization hAuth
    exact ⟨q.allowedAppIDs.getD [], q.timestamp, hNewer, ⟨dm, hdm, rfl, e, q, he, hPayload, hSigned,
      hIntent, hAddress, rfl, rfl⟩, hSame⟩

/-- What the owner decided in an earlier state stands in the access list after a later
one. -/
structure Stands (env : Env) (ownerPub : PublicKey) (old st : DeviceState) (store : Acl.Store) :
    Prop where
  suspension : ∀ memberID t, CarriesStatus env ownerPub old memberID "suspended" t →
    ∀ m ∈ store.members, m.memberID = memberID → m.status = "suspended" ∨
      ∃ u, t < u ∧ CarriesStatus env ownerPub st memberID "active" u
  permissions : ∀ memberID granted t, CarriesPermissions env ownerPub old memberID granted t →
    ∀ m ∈ store.members, m.memberID = memberID →
      ∃ ids u, t ≤ u ∧ CarriesPermissions env ownerPub st memberID ids u ∧
        m.allowedApps = ids.filterMap (appByID store.apps)

/-- In every run whose device states are not older, for any member, than the last applied
one with that member, the decisions of the owner stand. -/
theorem owner_decisions_stand (env : Env) (agent : Agent) (inputs : List Input)
    (hInputs : Meets (History.step env) (History.NotOlder env) (.start agent) inputs)
    (ownerPub : PublicKey) (hPinned : agent.store.pinnedAdminPubKey = some ownerPub) (i j : Nat)
    (hLt : i < j) (old st : DeviceState)
    (hOld : At (Agent.step env) agent inputs i
      fun agent input => agent.appliedState env input = some old)
    (hNew : At (Agent.step env) agent inputs j
      fun agent input => agent.appliedState env input = some st) :
    Stands env ownerPub old st
      (run (Agent.step env) agent (inputs.take (j + 1))).store := by
  have hRows : ∀ om ∈ old.members, ∀ dm ∈ st.members, dm.memberID = om.memberID → Follows om dm :=
    fun om hom dm hdm hID => follows_of_notOlder hInputs hLt hOld hNew hom hdm hID
  obtain ⟨input, hInput, hApplied⟩ := hNew
  have hPin := run_pinned env agent (inputs.take j)
  rw [run_take_succ hInput]
  generalize run (Agent.step env) agent (inputs.take j) = before at hApplied hPin ⊢
  obtain ⟨msg, _, a, rfl, hStep⟩ := exists_accepted hApplied
  have hOwner : a.ownerPub = ownerPub :=
    Option.some.inj (a.pinned.symm.trans (hPin.trans hPinned))
  have hMembers : (before.step env input).store.members = a.members := by
    rw [hStep, a.result_store]
    exact a.store_members.1
  have hApps : (before.step env input).store.apps = a.verified.apps := by
    rw [hStep, a.result_store]
    exact a.store_members.2
  subst hOwner
  constructor
  · rintro memberID t ⟨om, hom, rfl, e, p, he, hPayload, _, _, _, hStatus, rfl⟩ m hm hID
    rw [hMembers] at hm
    obtain ⟨dm, hdm, v, hRow, hVerify⟩ := a.exists_verified hm
    have hRowID : m.memberID = dm.memberID := by
      rw [hRow.1]
      exact (entry_of_verifyMember hVerify).1
    rw [← hID, hRowID]
    exact a.keeps_suspension hdm hRow hVerify (hRows om hom dm hdm (hRowID.symm.trans hID))
      (Option.bind_eq_some_iff.mpr ⟨e, he, hPayload⟩) hStatus
  · rintro memberID granted t ⟨om, hom, rfl, e, p, he, hPayload, _, _, _, _, rfl⟩ m hm hID
    rw [hMembers] at hm
    obtain ⟨dm, hdm, v, hRow, hVerify⟩ := a.exists_verified hm
    have hRowID : m.memberID = dm.memberID := by
      rw [hRow.1]
      exact (entry_of_verifyMember hVerify).1
    rw [← hID, hRowID, hApps]
    exact a.keeps_permissions hdm hRow hVerify (hRows om hom dm hdm (hRowID.symm.trans hID))
      (Option.bind_eq_some_iff.mpr ⟨e, he, hPayload⟩)

theorem signed_sampleEnvelope (states : List DeviceState) (key : PublicKey) (signerID : String)
    {body : Doc} {canon : Bytes} (h : Canonjson.marshalRaw (body.print true) = .ok canon) :
    Signed (sampleEnv states) key (sampleEnvelope key signerID body) := by
  refine ⟨canon, sampleSignature key canon, h, ?_, ?_⟩
  · dsimp only [sampleEnvelope]
    rw [h]
    exact decode64_encode64 _
  · exact decide_eq_true rfl

/-- A member with the given status envelope. -/
def memberState (generation : Int) (status : Option DSEnvelope) : DeviceState :=
  { deviceID := "d", generation := generation, members := [sampleMember (sampleKey 2) [] status]
    apps := [] }

/-- The member is suspended. -/
def suspendingState : DeviceState :=
  memberState 1 (some (sampleStatus (sampleKey 1) "b" "suspended"))

theorem suspendingState_carries (states : List DeviceState) :
    CarriesStatus (sampleEnv states) (sampleKey 1) suspendingState "b" "suspended" 0 := by
  obtain ⟨canon, hCanon⟩ : ∃ canon, (Canonjson.marshalRaw
      (sampleStatus (sampleKey 1) "b" "suspended").payload).toOption = some canon :=
    Option.isSome_iff_exists.mp (by decide +kernel)
  have hPayload : PayloadType.memberStatus.unmarshal
      (sampleStatus (sampleKey 1) "b" "suspended").payload =
        some ⟨⟨"member:status-d-b-suspended-0", 0⟩, "", "b", "suspended", ""⟩ := by decide +kernel
  have hIntent : "member:status-d-b-suspended-0" =
      "member:status-" ++ "d" ++ "-" ++ "b" ++ "-" ++ "suspended" ++ "-" ++ toString (0 : Int) := by
    decide +kernel
  exact ⟨_, List.mem_singleton_self _, rfl, _, _, rfl, hPayload,
    signed_sampleEnvelope states _ _ (toOption_eq_some.mp hCanon), hIntent, rfl, rfl, rfl⟩

def suspendingInputs : List Input :=
  List.replicate 2 (.succeeding 0 (.deviceState (sampleState suspendingState)))

def suspendingEnv : Env := sampleEnv [suspendingState]

/-- A paired agent is given the state that suspends the member. -/
def onSuspension (env : Env) : Agent × DeviceStateResult :=
  completeApply env (fun _ => true) ((sampleAgent env).beginState env 0 suspendingState)

/-- It is then given another state. -/
def afterSuspension (env : Env) (st : DeviceState) : Agent × DeviceStateResult :=
  completeApply env (fun _ => true) ((onSuspension env).1.beginState env 0 st)

/-- A member that is suspended, as it is verified. -/
def suspendedRow : VerifiedMember :=
  sampleRow (sampleMember (sampleKey 2) [] (some (sampleStatus (sampleKey 1) "b" "suspended"))) []
    "suspended" []

theorem onSuspension_eq (states : List DeviceState) : onSuspension (sampleEnv states) =
    completeApply (sampleEnv states) (fun _ => true)
      ((sampleAgent (sampleEnv states)).install (sampleEnv states) 0 1 ⟨[], [suspendedRow]⟩) := by
  have hBegin := beginState_sample states 0 suspendingState (sampleAgent (sampleEnv states)) rfl rfl
    (show (0 : Int) ≤ 1 by decide) rfl (.cons (verifyMember_suspendedMember ..) .nil)
  rw [onSuspension, hBegin]
  rfl

/-- The state that follows the suspension is installed if its member verifies. -/
theorem afterSuspension_eq (states : List DeviceState) (generation : Int) (h : 1 ≤ generation)
    (status : Option DSEnvelope) {row : VerifiedMember}
    (hRow : ∀ store, verifyMember (sampleEnv states) store (sampleKey 1) 0 []
      (sampleMember (sampleKey 2) [] status) = .ok row) :
    afterSuspension (sampleEnv states) (memberState generation status) =
      completeApply (sampleEnv states) (fun _ => true) ((completeApply (sampleEnv states)
        (fun _ => true) ((sampleAgent (sampleEnv states)).install (sampleEnv states) 0 1
          ⟨[], [suspendedRow]⟩)).1.install (sampleEnv states) 0 generation ⟨[], [row]⟩) := by
  rw [afterSuspension, onSuspension_eq]
  exact congrArg _ (beginState_sample _ _ _ _ rfl rfl h rfl (.cons (hRow _) .nil))

theorem repeated_suspension_stands :
    CarriesStatus suspendingEnv (sampleKey 1) suspendingState "b" "suspended" 0 ∧
    Stands suspendingEnv (sampleKey 1) suspendingState suspendingState
      (run (Agent.step suspendingEnv) (sampleAgent suspendingEnv) suspendingInputs).store := by
  have hReads : Reads [suspendingState] suspendingState := reads_head _ _
  have hDecode : ∀ st, decodeDeviceState suspendingEnv (sampleState suspendingState) = some st →
      suspendingState = st := fun st hst =>
    Option.some.inj ((decodeDeviceState_sample hReads).symm.trans hst)
  have hApplied : (onSuspension suspendingEnv).2.isApplied = true ∧
      (afterSuspension suspendingEnv suspendingState).2.isApplied = true := by
    rw [suspendingEnv, onSuspension_eq, suspendingState,
      afterSuspension_eq _ 1 (by decide) _ fun _ => verifyMember_suspendedMember ..]
    decide +kernel
  refine ⟨suspendingState_carries _, owner_decisions_stand suspendingEnv (sampleAgent suspendingEnv)
    suspendingInputs ⟨?_, ?_, trivial⟩ (sampleKey 1) rfl 0 1 (by decide) suspendingState
    suspendingState ⟨_, rfl, ?_⟩ ⟨_, rfl, ?_⟩⟩
  · rintro msg st verified ⟨⟩ _ _ dm _ om ⟨⟩
  · rintro msg st verified ⟨⟩ hst _ dm hdm om hom
    cases hDecode st hst
    rw [History.latest_step] at hom
    rcases History.exists_of_mem_remember hom with hNone | ⟨old, hOld, hMem⟩
    · cases hNone
    cases hDecode old (decodes_of_appliedState hOld rfl)
    cases List.mem_singleton.mp hdm
    cases List.mem_singleton.mp hMem
    exact Follows.refl _
  · exact appliedState_sample hReads hApplied.1
  · have hRun : run (Agent.step suspendingEnv) (sampleAgent suspendingEnv)
        (suspendingInputs.take 1) = (onSuspension suspendingEnv).1 := by
      rw [suspendingInputs, List.replicate_succ, List.take_succ_cons, List.take_zero,
        run_cons, run_nil]
      exact step_sampleState hReads 0 _
    rw [hRun]
    exact appliedState_sample hReads hApplied.2

/-- A state of a later generation leaves the status envelope out. -/
def omittingState : DeviceState := memberState 2 none

def omittingEnv : Env := sampleEnv [suspendingState, omittingState]

def omittingInputs : List Input :=
  [.succeeding 0 (.deviceState (sampleState suspendingState)),
    .succeeding 0 (.deviceState (sampleState omittingState))]

/-- The suspended member is active again. -/
theorem omitted_suspension_is_lifted :
    At (Agent.step omittingEnv) (sampleAgent omittingEnv) omittingInputs 0
      (fun agent input => agent.appliedState omittingEnv input = some suspendingState) ∧
    At (Agent.step omittingEnv) (sampleAgent omittingEnv) omittingInputs 1
      (fun agent input => agent.appliedState omittingEnv input = some omittingState) ∧
    ¬ Stands omittingEnv (sampleKey 1) suspendingState omittingState
      (run (Agent.step omittingEnv) (sampleAgent omittingEnv) omittingInputs).store := by
  have hFirst : Reads [suspendingState, omittingState] suspendingState := reads_head _ _
  have hSecond : Reads [suspendingState, omittingState] omittingState :=
    reads_cons (by decide +kernel) (reads_head _ _)
  have hValues : (onSuspension omittingEnv).2.isApplied = true ∧
      (afterSuspension omittingEnv omittingState).2.isApplied = true ∧
      ∃ m ∈ (afterSuspension omittingEnv omittingState).1.store.members,
        m.memberID = "b" ∧ m.status = "active" := by
    rw [omittingEnv, onSuspension_eq, omittingState,
      afterSuspension_eq _ 2 (by decide) _ fun _ => verifyMember_sampleMember ..]
    decide +kernel
  have hStep : (sampleAgent omittingEnv).step omittingEnv
      (.succeeding 0 (.deviceState (sampleState suspendingState))) = (onSuspension omittingEnv).1 :=
    step_sampleState hFirst 0 _
  refine ⟨⟨_, rfl, appliedState_sample hFirst hValues.1⟩, ⟨_, rfl, ?_⟩, ?_⟩
  · rw [omittingInputs, List.take_succ_cons, List.take_zero, run_cons, run_nil, hStep]
    exact appliedState_sample hSecond hValues.2.1
  · intro hStands
    have hLifted : ∃ m ∈ (run (Agent.step omittingEnv) (sampleAgent omittingEnv)
        omittingInputs).store.members, m.memberID = "b" ∧ m.status = "active" := by
      have hNext : (onSuspension omittingEnv).1.step omittingEnv
          (.succeeding 0 (.deviceState (sampleState omittingState))) =
            (afterSuspension omittingEnv omittingState).1 := step_sampleState hSecond 0 _
      rw [omittingInputs, run_cons, run_cons, run_nil, hStep, hNext]
      exact hValues.2.2
    obtain ⟨m, hm, hID, hActive⟩ := hLifted
    rcases hStands.suspension "b" 0 (suspendingState_carries _) m hm hID with
      hSuspended | ⟨_, _, dm, hdm, _, e, _, he, _⟩
    · rw [hActive] at hSuspended
      exact absurd hSuspended (by decide)
    · cases List.mem_singleton.mp hdm
      cases he

end Tunnel
