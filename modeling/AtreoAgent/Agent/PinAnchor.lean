import AtreoAgent.Acl.Anchored
import AtreoAgent.Agent.Lifecycle
import AtreoAgent.Tunnel.Cases
import AtreoAgent.Tunnel.Sample

/-! Admin commands and the pinned key. A command that needs an admin is checked against
the key in the row of the signer, not against the pin; the two agree as long as the admin
rows are at the pin. Every operation of a running agent keeps them there, but startup
takes admin rows from disk as they are. -/
namespace Lifecycle

open Codec Atreolink Acl WireGuard Tunnel Machine

/-- The rows that loading leaves in the store. -/
def Installation.rowsAtLoad (inst : Installation) : List MemberACLEntry :=
  match inst.files.acl with
  | .missing => []
  | .invalid => inst.process.storeAtLoad.members
  | .parsed state => state.members

/-- Startup finds the admin rows at the key of the pin file, and a key is pinned only
where the admin rows carry it already. -/
def Step.AtPin (inst : Installation) : Step → Prop
  | .start _ _ _ =>
      ∀ key, Store.loadPin inst.files.pin = .ok (some key) → AdminRows key inst.rowsAtLoad
  | .storeOp (.setPinnedAdminPublicKey pub) =>
      ∀ agent key, inst.process = .running agent → agent.store.pinnedAdminPubKey = none →
        key.bytes = pub → AdminRows key agent.store.members
  | _ => True

/-- The store of the daemon, if it has one, is anchored. -/
def Installation.Anchored (inst : Installation) : Prop :=
  match inst.process with
  | .stopped => True
  | .paired store => store.Anchored
  | .running agent => agent.store.Anchored

variable {s store : Store} {env : Env} {agent : Agent} {exec : List String → Bool}

theorem anchored_setPin {t : Store} {pub : Bytes}
    (hRows : ∀ key : PublicKey, s.pinnedAdminPubKey = none → key.bytes = pub →
      AdminRows key s.members) (h : s.setPinnedAdminPublicKey pub = .ok t) : t.Anchored := by
  unfold Store.setPinnedAdminPublicKey at h
  split at h
  next hSize =>
    split at h
    · cases h
    next hUnset =>
      cases h
      rintro _ ⟨⟩
      exact hRows ⟨pub, hSize⟩ (Option.not_isSome_iff_eq_none.mp hUnset) rfl
  · cases h

theorem setPinnedAdminPublicKey_eq_ok {t : Store} {pub : Bytes}
    (h : s.setPinnedAdminPublicKey pub = .ok t) :
    ∃ key : PublicKey, key.bytes = pub ∧ t = { s with pinnedAdminPubKey := some key } := by
  unfold Store.setPinnedAdminPublicKey at h
  split at h
  next hSize =>
    split at h
    · cases h
    · cases h
      exact ⟨⟨pub, hSize⟩, rfl, rfl⟩
  · cases h

/-- How an attempt to pin the owner can end. -/
inductive PinOutcome (files : Files) (store : Store) (r : PairResult) (entry : MemberACLEntry)
    (writes : Writes) : Files × Option Store → Prop where
  | refused : PinOutcome files store r entry writes (files, none)
  /-- The pin file is written, the owner row is refused. -/
  | conflict (pinned : Store) (hPin : store.setPinnedAdminPublicKey r.ownerIdentityPubkey = .ok pinned) :
      PinOutcome files store r entry writes
        ({ files with pin := .parsed ⟨encode64 r.ownerIdentityPubkey⟩ }, none)
  /-- The member id of the owner is not known. -/
  | unlisted (pinned : Store) (hPin : store.setPinnedAdminPublicKey r.ownerIdentityPubkey = .ok pinned)
      (hOwner : r.ownerMemberID = "") :
      PinOutcome files store r entry writes
        ({ files with pin := .parsed ⟨encode64 r.ownerIdentityPubkey⟩ }, some pinned)
  | listed (pinned t : Store)
      (hPin : store.setPinnedAdminPublicKey r.ownerIdentityPubkey = .ok pinned)
      (hOwner : r.ownerMemberID ≠ "") (hUpsert : pinned.upsertMember entry = .ok t) :
      PinOutcome files store r entry writes
        ({ acl := if writes.acl then .parsed t.persisted else files.acl
           pin := .parsed ⟨encode64 r.ownerIdentityPubkey⟩ }, some t)

theorem pinOwner_outcome (files : Files) (store : Store) (r : PairResult) (entry : MemberACLEntry)
    (writes : Writes) :
    PinOutcome files store r entry writes (pinOwner files store r entry writes) := by
  unfold pinOwner
  split
  · exact .refused
  next pinned hPin =>
    split
    · exact .refused
    · dsimp only
      split
      next hOwner => exact .unlisted pinned hPin hOwner
      next hOwner =>
        split
        · exact .conflict pinned hPin
        next t hUpsert =>
          have hListed : PinOutcome files store r entry writes _ :=
            .listed pinned t hPin hOwner hUpsert
          cases hSave : writes.acl with
          | false => simpa [hSave] using hListed
          | true => simpa [hSave] using hListed

theorem anchored_pinOwner {files files' : Files} {r : PairResult} {entry : MemberACLEntry}
    {writes : Writes} (h : pinOwner files Store.new r entry writes = (files', some store)) :
    store.Anchored := by
  have hPinned : ∀ pinned : Store, Store.new.setPinnedAdminPublicKey r.ownerIdentityPubkey = .ok pinned →
      pinned.Anchored := fun _ hPin => anchored_setPin (fun _ _ _ _ hm => by cases hm) hPin
  have hOutcome := pinOwner_outcome files Store.new r entry writes
  rw [h] at hOutcome
  cases hOutcome with
  | unlisted pinned hPin hOwner => exact hPinned store hPin
  | listed pinned t hPin hOwner hUpsert => exact Store.anchored_upsertMember (hPinned pinned hPin) hUpsert

/-- Loading leaves the pin of the file, if the file can be read, over the rows of the
access list. -/
theorem anchored_load (hs : s.Anchored) {pin : File AdminPinFile} {acl : File PersistedState}
    (hRows : ∀ key, Store.loadPin pin = .ok (some key) →
      AdminRows key (match acl with
        | .missing => []
        | .invalid => s.members
        | .parsed state => state.members)) : (s.load pin acl).1.Anchored := by
  unfold Store.load
  cases hPin : Store.loadPin pin with
  | error e => exact hs
  | ok pub =>
      cases acl with
      | missing =>
          intro key _ m hm
          cases hm
      | invalid => exact fun key hKey => hRows key (hPin.trans (congrArg _ hKey))
      | parsed state => exact fun key hKey => hRows key (hPin.trans (congrArg _ hKey))

/-- Startup touches the store only to add the clients it has installed. -/
theorem reconcileClient_store {memberID : String} {t : Agent} {c : ClientRecord}
    (hClient : reconcileClient env exec memberID agent c = some t) :
    t.store = agent.store ∨ ∃ rec, t.store = (agent.store.addClient memberID rec).1 := by
  unfold reconcileClient at hClient
  split at hClient
  · cases hClient
    exact Or.inl rfl
  · dsimp only at hClient
    split at hClient
    · split at hClient
      · cases hClient
      · cases hClient
        exact Or.inl rfl
    · split at hClient
      · split at hClient
        · cases hClient
        · cases hClient
          exact Or.inl rfl
      · cases hClient
        exact Or.inr ⟨_, rfl⟩

/-- What adding clients keeps, startup keeps. -/
theorem reconcilePeers_preserves {P : Store → Prop}
    (hAdd : ∀ store memberID rec, P store → P (store.addClient memberID rec).1) {t : Agent}
    (hInit : P agent.store) (h : reconcilePeers env exec agent = some t) : P t.store := by
  have hClient : ∀ (memberID : String) (u v : Agent) (c : ClientRecord), P u.store →
      reconcileClient env exec memberID u c = some v → P v.store := by
    intro memberID u v c hu hv
    rcases reconcileClient_store hv with hSame | ⟨rec, hAdded⟩
    · rw [hSame]
      exact hu
    · rw [hAdded]
      exact hAdd u.store memberID rec hu
  unfold reconcilePeers at h
  refine Fallible.foldlM_preserves (P := fun u : Agent => P u.store) ?_ ?_ h
  · intro u hu m _ v hv
    exact Fallible.foldlM_preserves (P := fun u : Agent => P u.store)
      (fun w hw c _ x hx => hClient m.memberID w x c hw hx) hu hv
  · exact hInit

theorem anchored_startup {leases : List (String × String)} {files : Files}
    (hLoad : (store.load files.pin files.acl).1.Anchored)
    (h : startup env exec leases files store = some agent) : agent.store.Anchored := by
  have hLoaded : (loadStore env files store).Anchored := by
    unfold loadStore
    dsimp only
    split
    · obtain ⟨hPin, hRows⟩ := Store.dropMembersFailing_spec
        (store.load files.pin files.acl).1 (reverifies env)
      exact hLoad.of_rowsFrom (Or.inl hPin) hRows
    · exact hLoad
  refine reconcilePeers_preserves (P := Store.Anchored) (fun s memberID rec hs => ?_) hLoaded h
  obtain ⟨hPin, hRows⟩ := Store.addClient_spec s memberID rec
  exact hs.of_rowsFrom (Or.inl hPin) hRows

theorem StoreOp.anchored_apply (hs : s.Anchored) (op : StoreOp)
    (hPin : ∀ pub, op = .setPinnedAdminPublicKey pub → ∀ key : PublicKey,
      s.pinnedAdminPubKey = none → key.bytes = pub → AdminRows key s.members) :
    (op.apply s).Anchored := by
  cases op with
  | replaceAll members =>
      rw [StoreOp.apply]
      cases h : s.replaceAll members with
      | error e => exact hs
      | ok t => exact Store.anchored_replaceAll h
  | reconcile members apps =>
      rw [StoreOp.apply]
      cases h : s.reconcile members apps with
      | error e => exact hs
      | ok t => exact Store.anchored_reconcile h
  | upsertMember member =>
      rw [StoreOp.apply]
      cases h : s.upsertMember member with
      | error e => exact hs
      | ok t => exact Store.anchored_upsertMember hs h
  | setAllowedApps memberID apps =>
      rw [StoreOp.apply, Store.setAllowedApps]
      split
      · exact hs.of_rowsFrom (Or.inl rfl) (rowsFrom_updateFirst _ fun _ => ⟨rfl, rfl⟩)
      · exact hs
  | setMemberStatus memberID status =>
      rw [StoreOp.apply, Store.setMemberStatus]
      split
      · exact hs.of_rowsFrom (Or.inl rfl) (rowsFrom_updateFirst _ fun _ => ⟨rfl, rfl⟩)
      · exact hs
  | addClient memberID rec =>
      obtain ⟨hSame, hRows⟩ := Store.addClient_spec s memberID rec
      exact hs.of_rowsFrom (Or.inl hSame) hRows
  | removeClient memberID key =>
      obtain ⟨hSame, hRows⟩ := Store.removeClient_spec s memberID key
      exact hs.of_rowsFrom (Or.inl hSame) hRows
  | setAppDefinitions apps =>
      exact hs.of_rowsFrom (Or.inl rfl) (rowsFrom_map _ fun _ => ⟨rfl, rfl⟩)
  | removeAppByID appID =>
      exact hs.of_rowsFrom (Or.inl rfl) (rowsFrom_map _ fun _ => ⟨rfl, rfl⟩)
  | removeMember memberID =>
      exact hs.of_rowsFrom (Or.inl rfl) (rowsFrom_of_subset fun _ hm => List.mem_of_mem_eraseP hm)
  | setAppliedGeneration gen appliedAt => exact hs
  | dropMembersFailing accepts =>
      obtain ⟨hSame, hRows⟩ := Store.dropMembersFailing_spec s accepts
      exact hs.of_rowsFrom (Or.inl hSame) hRows
  | setPinnedAdminPublicKey pub =>
      rw [StoreOp.apply]
      cases h : s.setPinnedAdminPublicKey pub with
      | error e => exact hs
      | ok t => exact anchored_setPin (hPin pub rfl) h
  | clearPinnedAdminPublicKey => exact hs.of_rowsFrom (Or.inr rfl) (RowsFrom.refl _)

/-- No message moves an admin row away from the pin. -/
theorem anchored_agentStep (hs : agent.store.Anchored) (env : Env) (input : Input) :
    (agent.step env input).store.Anchored := by
  have hEffect := step_effect env agent input
  generalize agent.step env input = next at hEffect ⊢
  cases hEffect with
  | quiet nonces live => exact hs
  | unbound msg hEvent c => exact hs
  | applied msg hEvent a =>
      have hStore : a.store.Anchored := Store.anchored_reconcile a.reconciles
      rw [a.result_store]
      exact hStore
  | provisioned msg hEvent nonces req hPasses =>
      have hCases := addClientPeer_cases env input.exec { agent with nonces := nonces } req
      generalize (Agent.addClientPeer env input.exec { agent with nonces := nonces } req).1 = next
        at hCases ⊢
      cases hCases with
      | noAddress hNone => exact hs
      | unknownMember allocator ip store hAllocate hAdd => exact Store.anchored_addClient hs hAdd
      | peerRefused allocator ip store e hAllocate hAdd hPeer =>
          have hStore : store.Anchored := Store.anchored_addClient hs hAdd
          obtain ⟨hPin, hRows⟩ := Store.removeClient_spec store req.memberID req.clientKey
          exact hStore.of_rowsFrom (Or.inl hPin) hRows
      | installed allocator ip store peers hAllocate hAdd hPeer =>
          exact Store.anchored_addClient hs hAdd
  | dropped live hEvent hTrip => exact hs

theorem anchored_step {inst : Installation} (h : inst.Anchored) (env : Env) (step : Step)
    (hStep : step.AtPin inst) : (inst.step env step).Anchored := by
  obtain ⟨files, process⟩ := inst
  cases step with
  | writeFiles files' => exact h
  | pairDaemon r writes =>
      cases process with
      | stopped =>
          dsimp only [Installation.step]
          rcases hPin : pinOwner files Store.new r r.ownerEntry writes with ⟨files', _ | store⟩
          · trivial
          · exact anchored_pinOwner hPin
      | paired store => exact h
      | running agent => exact h
  | pairCommand r writes => exact h
  | start exec leases saved =>
      have hStarted : ∀ (store : Store) (agent : Agent), store.Anchored →
          (∀ key, Store.loadPin files.pin = .ok (some key) → AdminRows key
            (match files.acl with
              | .missing => []
              | .invalid => store.members
              | .parsed state => state.members)) →
          startup env exec leases files store = some agent → agent.store.Anchored :=
        fun store agent hs hRows hStart => anchored_startup (anchored_load hs hRows) hStart
      cases process with
      | stopped =>
          dsimp only [Installation.step, Process.storeAtLoad]
          cases hStart : startup env exec leases files Store.new with
          | none => trivial
          | some agent => exact hStarted Store.new agent (fun _ _ _ hm => by cases hm) hStep hStart
      | paired store =>
          dsimp only [Installation.step, Process.storeAtLoad]
          cases hStart : startup env exec leases files store with
          | none => trivial
          | some agent => exact hStarted store agent h hStep hStart
      | running agent => exact h
  | handle input saved =>
      cases process with
      | stopped => exact h
      | paired store => exact h
      | running agent => exact anchored_agentStep h env input
  | storeOp op =>
      cases process with
      | stopped => exact h
      | paired store => exact h
      | running agent =>
          refine StoreOp.anchored_apply h op ?_
          rintro pub rfl key hNone hBytes
          exact hStep agent key rfl hNone hBytes
  | unpair now msg removed =>
      cases process with
      | stopped => exact h
      | paired store => exact h
      | running agent =>
          dsimp only [Installation.step]
          split
          · trivial
          · exact h
  | stop => trivial

/-- A command accepted from an admin is signed with the key of the admin's row. -/
theorem checkSignature_of_requireAdmin {msg : TunnelMessage}
    (h : requireAdmin env store msg = .ok ()) :
    ∃ m ∈ store.members, m.isAdmin = true ∧
      ∃ key, decodeEd25519 m.identityKey = some key ∧ checkSignature env msg key = .ok () := by
  unfold requireAdmin at h
  split at h
  · cases h
  · split at h
    · cases h
    next m hRow =>
      split at h
      next hAdmin =>
        obtain ⟨b64, key, hLookup, hKey, hSignature⟩ := verifyEnvelope_eq_ok h
        rw [aclLookup, hRow] at hLookup
        cases hLookup
        exact ⟨m, Store.mem_of_lookupByMemberID hRow, hAdmin, key, hKey, hSignature⟩
      · cases h

theorem checkSignature_of_adminAuth (hs : store.Anchored) {key : PublicKey}
    (hPin : store.pinnedAdminPubKey = some key) {now : Time} {msg : TunnelMessage}
    {fields : CommandEnvelopeFields} {intent : String}
    (h : verifyCommand env store now msg .admin fields intent = .ok ()) :
    checkSignature env msg key = .ok () := by
  obtain ⟨_, _, hVerify⟩ := verifyCommand_eq_ok h
  obtain ⟨m, hm, hAdmin, key', hDecode, hSigned⟩ := checkSignature_of_requireAdmin hVerify
  rw [hs key hPin m hm hAdmin, decodeEd25519_base64] at hDecode
  cases hDecode
  exact hSigned

/-- In every run whose startups find the admin rows at the pin, the admin rows of the
running agent are at the pin, and admin commands are accepted only under the pinned
key. -/
theorem admin_commands_anchored (env : Env) (files : Files) (steps : List Step)
    (hSteps : Meets (Installation.step env) (fun inst step => step.AtPin inst)
      ⟨files, .stopped⟩ steps)
    (agent : Agent) (key : PublicKey)
    (hRunning : (run (Installation.step env) ⟨files, .stopped⟩ steps).process =
      .running agent)
    (hPin : agent.store.pinnedAdminPubKey = some key) :
    (∀ m ∈ agent.store.members, m.isAdmin = true → m.identityKey = key.base64) ∧
      ∀ now msg fields intent, verifyCommand env agent.store now msg .admin fields intent = .ok () →
        checkSignature env msg key = .ok () := by
  have hInit : Installation.Anchored ⟨files, .stopped⟩ := trivial
  have hInv : (run (Installation.step env) ⟨files, .stopped⟩ steps).Anchored := by
    refine invariant_run Installation.Anchored (fun inst step h hStep => ?_) hInit hSteps
    exact anchored_step h env step hStep
  have hAnchored : agent.store.Anchored := by
    rw [Installation.Anchored, hRunning] at hInv
    exact hInv
  exact ⟨hAnchored key hPin, fun _ _ _ _ h => checkSignature_of_adminAuth hAnchored hPin h⟩

/-- A pairing for evaluations. -/
def samplePairing (key : PublicKey) (memberID : String) : PairResult :=
  { ownerIdentityPubkey := key.bytes, ownerMemberID := memberID, ownerUserID := "u",
    ownerEmail := "", ownerName := "" }

def Process.agent? : Process → Option Agent
  | .running agent => some agent
  | _ => none

theorem Process.eq_running {p : Process} (h : agent ∈ p.agent?) : p = .running agent := by
  cases p with
  | running a =>
      cases h
      rfl
  | stopped => cases h
  | paired store => cases h

/-- The first owner pairs and the daemon starts. -/
def firstStart : List Step :=
  [.pairDaemon (samplePairing (sampleKey 1) "m1") ⟨true, true⟩, .start (fun _ => true) [] true]

theorem firstStart_atPin :
    Meets (Installation.step (sampleEnv [])) (fun inst step => step.AtPin inst)
      ⟨⟨.missing, .missing⟩, .stopped⟩ firstStart := by
  refine ⟨trivial, ?_, trivial⟩
  intro key hPin
  have hKey : Store.loadPin (Installation.step (sampleEnv []) ⟨⟨.missing, .missing⟩, .stopped⟩
      (.pairDaemon (samplePairing (sampleKey 1) "m1") ⟨true, true⟩)).files.pin =
        .ok (some (sampleKey 1)) := by decide +kernel
  rw [hKey] at hPin
  cases hPin
  change ∀ m ∈ _, _
  decide +kernel

theorem first_owner_anchored :
    ∃ agent, (run (Installation.step (sampleEnv [])) ⟨⟨.missing, .missing⟩, .stopped⟩
        firstStart).process = .running agent ∧
      agent.store.pinnedAdminPubKey = some (sampleKey 1) ∧
      (∀ m ∈ agent.store.members, m.isAdmin = true → m.identityKey = (sampleKey 1).base64) ∧
      ∀ now msg fields intent,
        verifyCommand (sampleEnv []) agent.store now msg .admin fields intent = .ok () →
          checkSignature (sampleEnv []) msg (sampleKey 1) = .ok () := by
  have hRun : ∃ agent ∈ (run (Installation.step (sampleEnv []))
      ⟨⟨.missing, .missing⟩, .stopped⟩ firstStart).process.agent?,
        agent.store.pinnedAdminPubKey = some (sampleKey 1) := by decide +kernel
  obtain ⟨agent, hMem, hPin⟩ := hRun
  exact ⟨agent, Process.eq_running hMem, hPin, admin_commands_anchored (sampleEnv [])
    ⟨.missing, .missing⟩ firstStart firstStart_atPin agent (sampleKey 1)
    (Process.eq_running hMem) hPin⟩

/-- A request of the former owner to unpair. -/
def formerUnpair : TunnelMessage :=
  sampleCommand (sampleKey 1) "m1" "c1" (.obj [("deviceId", .str "d"),
    ("intent", .str "unpair-device-d-100"), ("ts", .num (Json.Number.ofInt 100))])

/-- One owner pairs and unpairs, another pairs with the `pair` command, and the daemon
starts. -/
def handover : List Step :=
  [.pairDaemon (samplePairing (sampleKey 1) "m1") ⟨true, true⟩,
    .start (fun _ => true) [] true,
    .unpair 100000000000 formerUnpair true,
    .pairCommand (samplePairing (sampleKey 2) "m2") ⟨true, true⟩,
    .start (fun _ => true) [] true]

theorem former_owner_stays_admin :
    ∃ agent ∈ (run (Installation.step (sampleEnv [])) ⟨⟨.missing, .missing⟩, .stopped⟩
        handover).process.agent?,
      agent.store.pinnedAdminPubKey = some (sampleKey 2) ∧
      (∃ m ∈ agent.store.members, m.isAdmin = true ∧ m.identityKey ≠ (sampleKey 2).base64) ∧
      agent.acceptsUnpaired (sampleEnv []) 100000000000 formerUnpair = true ∧
      (checkSignature (sampleEnv []) formerUnpair (sampleKey 2)).isOk = false := by
  decide +kernel

end Lifecycle
