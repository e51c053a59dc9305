import AtreoAgent.Agent.Admissions

/-! What unpairing leaves for the next owner. Unpairing removes the pin and ends the
process; the access list stays on disk. The daemon pairs with an empty store and
overwrites the file only if it learns the member id of the owner; the `pair` command
starts from the old file. -/
namespace Lifecycle

open Codec Atreolink Acl WireGuard Tunnel Machine

inductive PairingFlow where
  | daemon
  | command
  deriving DecidableEq, Repr

namespace PairingFlow

def step (flow : PairingFlow) (r : PairResult) (writes : Writes) : Step :=
  match flow with
  | daemon => .pairDaemon r writes
  | command => .pairCommand r writes

/-- The row the flow installs for the owner. -/
def entry (flow : PairingFlow) (r : PairResult) : MemberACLEntry :=
  match flow with
  | daemon => r.ownerEntry
  | command => r.commandEntry

/-- The store the flow starts from. -/
def base (flow : PairingFlow) (files : Files) : Store :=
  match flow with
  | daemon => Store.new
  | command => (Store.new.load files.pin files.acl).1

/-- The process once the flow has ended with a store. The command exits. -/
def process (flow : PairingFlow) (store : Store) : Process :=
  match flow with
  | daemon => .paired store
  | command => .stopped

theorem entry_clients (flow : PairingFlow) (r : PairResult) : (flow.entry r).clients = [] := by
  cases flow <;> rfl

theorem entry_role (flow : PairingFlow) (r : PairResult) : (flow.entry r).role = "owner" := by
  cases flow <;> rfl

end PairingFlow

/-- Nothing is in the store but the row of the owner. -/
structure Forgets (entry : MemberACLEntry) (s : Store) : Prop where
  members : ∀ m ∈ s.members, m = entry
  apps : s.apps = []
  generation : s.generation = 0

/-- The file has nothing that startup would serve but the row of the owner. -/
def HoldsNothing (env : Env) (entry : MemberACLEntry) (state : PersistedState) : Prop :=
  state.generation = 0 ∧ state.apps = [] ∧
    ∀ m ∈ state.members, reverifies env m = true → m = entry

/-- The same, once the row of the owner has taken the place of the first one with its
member id, whose clients it keeps. -/
def HoldsNothingElse (env : Env) (entry : MemberACLEntry) (state : PersistedState) : Prop :=
  state.generation = 0 ∧ state.apps = [] ∧
    (∀ m, state.members.find? (·.memberID = entry.memberID) = some m → m.clients = []) ∧
    ∀ m ∈ state.members.eraseP (·.memberID = entry.memberID), reverifies env m = true → m = entry

/-- The pairing overwrites what is on disk, or there is nothing on disk to serve. -/
def PairingFlow.Overwrites (env : Env) (files : Files) (r : PairResult) (writes : Writes)
    (flow : PairingFlow) : Prop :=
  if r.ownerMemberID ≠ "" ∧ writes.acl = true then
    match flow with
    | .daemon => True
    | .command => ∀ pin state, Store.loadPin files.pin = .ok pin → files.acl = .parsed state →
        HoldsNothingElse env r.commandEntry state
  else ∀ state, files.acl = .parsed state → HoldsNothing env (flow.entry r) state

/-- The files once unpairing has ended the process. -/
def unpairedFiles (files : Files) (removed : Bool) : Files :=
  if removed then { files with pin := .missing } else files

variable {env : Env}

variable {files : Files} {store : Store} {entry : MemberACLEntry}

/-- With a pin on disk startup serves the rows of the file that pass re-verification. A
file that cannot be read leaves the store as the pairing left it. -/
theorem forgets_loadStore {key : PublicKey} (hPin : Store.loadPin files.pin = .ok (some key))
    (hStore : Forgets entry store) :
    Forgets entry (loadStore env files store) ↔
      ∀ state, files.acl = .parsed state → HoldsNothing env entry state := by
  have hDrop : ∀ loaded : Store, Forgets entry (loaded.dropMembersFailing (reverifies env)).1 ↔
      HoldsNothing env entry loaded.persisted := by
    intro loaded
    obtain ⟨hApps, hGeneration⟩ := Store.dropMembersFailing_rest loaded (reverifies env)
    have hMembers := Store.dropMembersFailing_members loaded (reverifies env)
    constructor
    · intro h
      refine ⟨hGeneration.symm.trans h.generation, hApps.symm.trans h.apps,
        fun m hm hVerified => h.members m ?_⟩
      rw [hMembers]
      exact List.mem_filter.mpr ⟨hm, hVerified⟩
    · rintro ⟨hZero, hNone, hRows⟩
      refine ⟨fun m hm => ?_, hApps.trans hNone, hGeneration.trans hZero⟩
      rw [hMembers] at hm
      exact hRows m (List.mem_filter.mp hm).1 (List.mem_filter.mp hm).2
  unfold loadStore Store.load
  rw [hPin]
  cases files.acl with
  | missing =>
      refine (hDrop _).trans ⟨(by rintro _ state ⟨⟩), fun _ => ?_⟩
      exact ⟨hStore.generation, rfl, fun m hm => by cases hm⟩
  | invalid =>
      refine (hDrop _).trans ⟨(by rintro _ state ⟨⟩), fun _ => ?_⟩
      exact ⟨hStore.generation, hStore.apps, fun m hm _ => hStore.members m hm⟩
  | parsed state =>
      refine (hDrop _).trans ⟨?_, fun h => h state rfl⟩
      rintro h _ ⟨⟩
      exact h

/-- Startup adds clients only to rows that have some. -/
theorem forgets_startup {exec : List String → Bool} {leases : List (String × String)}
    {agent : Agent} (hClients : entry.clients = [])
    (hStore : Forgets entry (loadStore env files store))
    (hStart : startup env exec leases files store = some agent) : Forgets entry agent.store := by
  have hSame : agent.store = loadStore env files store := by
    unfold startup reconcilePeers at hStart
    refine Fallible.foldlM_preserves (P := fun u : Agent => u.store = loadStore env files store)
      (fun u hu m hm v hv => ?_) rfl hStart
    rw [hStore.members m (List.mem_filter.mp hm).1, hClients] at hv
    cases hv
    exact hu
  rw [hSame]
  exact hStore

/-- Installing the row of the owner leaves the other rows, and the clients of the row it
takes the place of. -/
theorem holdsNothing_upsertMember {s t : Store} (hClients : entry.clients = [])
    (hOwner : entry.role = "owner") (h : s.upsertMember entry = .ok t) :
    HoldsNothing env entry t.persisted ↔ HoldsNothingElse env entry s.persisted := by
  obtain ⟨_, _, hStore⟩ := Fallible.bind_eq_ok.mp h
  cases hStore
  have hMerged : ∀ m : MemberACLEntry,
      (reverifies env (Store.mergeMember m entry) = true → Store.mergeMember m entry = entry) ↔
        m.clients = [] := by
    intro m
    rw [Store.mergeMember, if_pos hClients]
    have hAdmin : reverifies env { entry with clients := m.clients } = true := by
      simp [reverifies, MemberACLEntry.isAdmin, hOwner]
    constructor
    · intro hSame
      have hKept := congrArg MemberACLEntry.clients (hSame hAdmin)
      exact hKept.trans hClients
    · intro hNone _
      rw [hNone, ← hClients]
  refine and_congr Iff.rfl (and_congr Iff.rfl ?_)
  change (∀ m ∈ (if s.members.any (·.memberID = entry.memberID) then
      updateFirst (·.memberID = entry.memberID) (Store.mergeMember · entry) s.members
    else s.members ++ [entry]), reverifies env m = true → m = entry) ↔ _
  split
  next hListed =>
    refine (forall_mem_updateFirst s.members).trans (and_congr ?_ Iff.rfl)
    exact forall₂_congr fun m _ => hMerged m
  next hNew =>
    have hNone : ∀ m ∈ s.members, ¬ (decide (m.memberID = entry.memberID) = true) := by
      simpa using hNew
    rw [Store.persisted, List.find?_eq_none.mpr hNone, List.eraseP_of_forall_not hNone,
      List.forall_mem_append]
    constructor
    · rintro ⟨hRows, _⟩
      exact ⟨(by rintro m ⟨⟩), hRows⟩
    · rintro ⟨_, hRows⟩
      refine ⟨hRows, fun m hm _ => List.mem_singleton.mp hm⟩

theorem step_of_paired {flow : PairingFlow} {files' : Files} {r : PairResult} {writes : Writes}
    (h : pinOwner files (flow.base files) r (flow.entry r) writes = (files', some store)) :
    Installation.step env ⟨files, .stopped⟩ (flow.step r writes) =
      ⟨files', flow.process store⟩ := by
  cases flow with
  | daemon =>
      have hPin : pinOwner files Store.new r r.ownerEntry writes = (files', some store) := h
      dsimp only [PairingFlow.step, Installation.step]
      rw [hPin]
      rfl
  | command =>
      have hPin : pinOwner files (Store.new.load files.pin files.acl).1 r r.commandEntry writes =
        (files', some store) := h
      dsimp only [PairingFlow.step, Installation.step]
      rw [hPin]
      rfl

/-- A daemon that was not running and runs has been started from its files. -/
theorem startup_of_start {inst : Installation} (hIdle : ∀ agent, inst.process ≠ .running agent)
    {exec : List String → Bool} {leases : List (String × String)} {saved : Bool} {served : Agent}
    (h : (inst.step env (.start exec leases saved)).process = .running served) :
    startup env exec leases inst.files inst.process.storeAtLoad = some served := by
  dsimp only [Installation.step] at h
  split at h
  next agent hRunning => exact absurd hRunning (hIdle agent)
  next =>
    split at h
    · cases h
    next agent hStart =>
      cases h
      exact hStart

theorem PairingFlow.process_idle (flow : PairingFlow) (store : Store) (agent : Agent) :
    flow.process store ≠ .running agent := by
  cases flow <;> rintro ⟨⟩

theorem forgets_new (entry : MemberACLEntry) : Forgets entry Store.new :=
  ⟨(by rintro m ⟨⟩), rfl, rfl⟩

/-- The rows that the `pair` command starts from are those of the file, unless the pin or
the file cannot be read. -/
theorem holdsNothingElse_load :
    HoldsNothingElse env entry (Store.new.load files.pin files.acl).1.persisted ↔
      ∀ pin state, Store.loadPin files.pin = .ok pin → files.acl = .parsed state →
        HoldsNothingElse env entry state := by
  have hNew : HoldsNothingElse env entry Store.new.persisted :=
    ⟨rfl, rfl, (by rintro m ⟨⟩), (by rintro m ⟨⟩)⟩
  unfold Store.load
  cases Store.loadPin files.pin with
  | error e => exact ⟨(by rintro _ pin state ⟨⟩), fun _ => hNew⟩
  | ok pin =>
      cases files.acl with
      | missing => exact ⟨(by rintro _ pin state _ ⟨⟩), fun _ => hNew⟩
      | invalid => exact ⟨(by rintro _ pin state _ ⟨⟩), fun _ => hNew⟩
      | parsed state =>
          refine ⟨?_, fun h => h pin state rfl rfl⟩
          rintro h _ _ _ ⟨⟩
          exact h

/-- What startup loads after a successful pairing is the pairing's own, exactly if the
pairing overwrites what is on disk. -/
theorem forgets_paired {flow : PairingFlow} {files' : Files} {r : PairResult} {writes : Writes}
    (h : pinOwner files (flow.base files) r (flow.entry r) writes = (files', some store)) :
    Forgets (flow.entry r) (loadStore env files' (flow.process store).storeAtLoad) ↔
      flow.Overwrites env files r writes := by
  have hFile : ∀ s t : Store, s.setPinnedAdminPublicKey r.ownerIdentityPubkey = .ok t →
      ∃ key, Store.loadPin (.parsed ⟨encode64 r.ownerIdentityPubkey⟩) = .ok (some key) ∧
        t = { s with pinnedAdminPubKey := some key } := by
    intro s t hPin
    obtain ⟨key, hBytes, rfl⟩ := setPinnedAdminPublicKey_eq_ok hPin
    rw [← hBytes]
    exact ⟨key, loadPin_base64 key, rfl⟩
  unfold PairingFlow.Overwrites
  have hOutcome := pinOwner_outcome files (flow.base files) r (flow.entry r) writes
  rw [h] at hOutcome
  cases hOutcome with
  | unlisted pinned hPin hOwner =>
      obtain ⟨key, hKey, rfl⟩ := hFile _ _ hPin
      rw [if_neg fun hSaved => hSaved.1 hOwner]
      refine forgets_loadStore hKey ?_
      cases flow with
      | daemon => exact ⟨(by rintro m ⟨⟩), rfl, rfl⟩
      | command => exact forgets_new _
  | listed pinned t hPin hOwner hUpsert =>
      obtain ⟨key, hKey, rfl⟩ := hFile _ _ hPin
      have hStore : Forgets (flow.entry r) (flow.process store).storeAtLoad := by
        cases flow with
        | daemon =>
            obtain ⟨_, _, hSame⟩ := Fallible.bind_eq_ok.mp hUpsert
            cases hSame
            exact ⟨fun m hm => List.mem_singleton.mp hm, rfl, rfl⟩
        | command => exact forgets_new _
      refine (forgets_loadStore hKey hStore).trans ?_
      cases hSave : writes.acl with
      | false =>
          have hUnsaved : ¬ (r.ownerMemberID ≠ "" ∧ false = true) :=
            fun hSaved => Bool.false_ne_true hSaved.2
          rw [if_neg hUnsaved]
          exact Iff.rfl
      | true =>
          have hSaved : r.ownerMemberID ≠ "" ∧ true = true := ⟨hOwner, rfl⟩
          rw [if_pos hSaved]
          have hWritten : (∀ state, File.parsed store.persisted = .parsed state →
              HoldsNothing env (flow.entry r) state) ↔
                HoldsNothing env (flow.entry r) store.persisted := by
            refine ⟨fun hAll => hAll _ rfl, ?_⟩
            rintro hState _ ⟨⟩
            exact hState
          refine hWritten.trans ((holdsNothing_upsertMember (flow.entry_clients r)
            (flow.entry_role r) hUpsert).trans ?_)
          cases flow with
          | daemon =>
              exact ⟨fun _ => trivial,
                fun _ => ⟨rfl, rfl, (by rintro m ⟨⟩), (by rintro m ⟨⟩)⟩⟩
          | command => exact holdsNothingElse_load

/-- After an accepted request to unpair and a successful pairing, the store that the next
startup serves has nothing of the pairing before, exactly if the new pairing overwrites
what is on disk or there is nothing on disk to serve. -/
theorem unpairing_forgets (env : Env) (files : Files) (agent : Agent) (now : Time)
    (msg : TunnelMessage) (removed : Bool) (hUnpaired : agent.acceptsUnpaired env now msg = true)
    (flow : PairingFlow) (r : PairResult) (writes : Writes)
    (hPaired : (pinOwner (unpairedFiles files removed) (flow.base (unpairedFiles files removed)) r
      (flow.entry r) writes).2.isSome = true) :
    let inst := run (Installation.step env) ⟨files, .running agent⟩
      [.unpair now msg removed, flow.step r writes]
    (Forgets (flow.entry r) (loadStore env inst.files inst.process.storeAtLoad) ∧
      ∀ exec leases saved served,
        (inst.step env (.start exec leases saved)).process = .running served →
          Forgets (flow.entry r) served.store) ↔
      flow.Overwrites env (unpairedFiles files removed) r writes := by
  intro inst
  rcases hOutcome : pinOwner (unpairedFiles files removed) (flow.base (unpairedFiles files removed))
    r (flow.entry r) writes with ⟨files', _ | store⟩
  · rw [hOutcome] at hPaired
    cases hPaired
  have hInst : inst = ⟨files', flow.process store⟩ := by
    have hStopped : Installation.step env ⟨files, .running agent⟩ (.unpair now msg removed) =
        ⟨unpairedFiles files removed, .stopped⟩ := if_pos hUnpaired
    change Installation.step env (Installation.step env ⟨files, .running agent⟩ _) _ = _
    rw [hStopped]
    exact step_of_paired hOutcome
  rw [hInst]
  refine ⟨fun h => (forgets_paired hOutcome).mp h.1, fun hOver => ?_⟩
  have hLoaded := (forgets_paired hOutcome).mpr hOver
  refine ⟨hLoaded, fun exec leases saved served hServed => ?_⟩
  have hStart : startup env exec leases files' (flow.process store).storeAtLoad = some served :=
    startup_of_start (flow.process_idle store) hServed
  exact forgets_startup (flow.entry_clients r) hLoaded hStart

/-- A state of the first owner. -/
def ownState : DeviceState :=
  { deviceID := "d", generation := 1, members := [sampleOwner (sampleKey 1) []], apps := [] }

def ownEnv : Env := sampleEnv [ownState]

/-- The owner pairs, the daemon starts and applies a state. -/
def owning : List Step :=
  [.pairDaemon (samplePairing (sampleKey 1) "a") ⟨true, true⟩, .start (fun _ => true) [] true,
    .handle (.succeeding 0 (.deviceState (sampleState ownState))) true]

def owned : Installation :=
  run (Installation.step ownEnv) ⟨⟨.missing, .missing⟩, .stopped⟩ owning

/-- The owner unpairs. -/
def ownUnpair : TunnelMessage :=
  sampleCommand (sampleKey 1) "a" "c1" (.obj [("deviceId", .str "d"),
    ("intent", .str "unpair-device-d-100"), ("ts", .num (Json.Number.ofInt 100))])

/-- The daemon learns the member id of the new owner and saves: the next store has the
row of the new owner and nothing else. -/
theorem daemon_pairing_forgets :
    ∃ agent, owned.process = .running agent ∧ agent.store.generation = 1 ∧
      agent.acceptsUnpaired ownEnv 100000000000 ownUnpair = true ∧
      ∀ exec leases saved served,
        (run (Installation.step ownEnv) ⟨owned.files, .running agent⟩
          [.unpair 100000000000 ownUnpair true,
            .pairDaemon (samplePairing (sampleKey 3) "o") ⟨true, true⟩,
            .start exec leases saved]).process = .running served →
          Forgets (samplePairing (sampleKey 3) "o").ownerEntry served.store := by
  have hRun : ∃ agent ∈ owned.process.agent?, agent.store.generation = 1 ∧
      agent.acceptsUnpaired ownEnv 100000000000 ownUnpair = true := by decide +kernel
  have hPaired : ∀ files : Files, (pinOwner files Store.new (samplePairing (sampleKey 3) "o")
      (samplePairing (sampleKey 3) "o").ownerEntry ⟨true, true⟩).2.isSome = true := fun files => rfl
  have hOver : PairingFlow.daemon.Overwrites ownEnv (unpairedFiles owned.files true)
      (samplePairing (sampleKey 3) "o") ⟨true, true⟩ := by
    rw [PairingFlow.Overwrites, if_pos ⟨by decide, rfl⟩]
    trivial
  obtain ⟨agent, hMem, hGeneration, hUnpaired⟩ := hRun
  exact ⟨agent, Process.eq_running hMem, hGeneration, hUnpaired,
    ((unpairing_forgets ownEnv owned.files agent 100000000000 ownUnpair true hUnpaired .daemon
      (samplePairing (sampleKey 3) "o") ⟨true, true⟩ (hPaired _)).mpr hOver).2⟩

/-- The owner unpairs, the flow pairs another one, and the daemon starts. -/
def repairing (flow : PairingFlow) (memberID : String) : List Step :=
  [.unpair 100000000000 ownUnpair true,
    flow.step (samplePairing (sampleKey 3) memberID) ⟨true, true⟩,
    .start (fun _ => true) [] true]

/-- The daemon without the member id of the new owner, and the `pair` command with it: the
former owner is an admin of the new pairing and the generation is the former one. -/
theorem former_pairing_served :
    (∃ agent ∈ (run (Installation.step ownEnv) owned (repairing .daemon "")).process.agent?,
      agent.store.pinnedAdminPubKey = some (sampleKey 3) ∧ agent.store.generation = 1 ∧
      ∃ m ∈ agent.store.members, m.isAdmin = true ∧ m.identityKey = (sampleKey 1).base64) ∧
    ∃ agent ∈
        (run (Installation.step ownEnv) owned (repairing .command "o")).process.agent?,
      agent.store.pinnedAdminPubKey = some (sampleKey 3) ∧ agent.store.generation = 1 ∧
      ∃ m ∈ agent.store.members, m.isAdmin = true ∧ m.identityKey = (sampleKey 1).base64 := by
  decide +kernel

end Lifecycle
