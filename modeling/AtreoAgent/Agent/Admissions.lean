import AtreoAgent.Agent.PinAnchor
import AtreoAgent.Acl.Clients
import AtreoAgent.Tunnel.Authorised

/-! Where the members of an installation come from. Each join is kept with the owner key
its invite was verified under and the certificate it led to. Certificates carry no
owner, so those of one pairing are accepted in the next. -/
namespace Lifecycle

open Codec Atreolink Acl WireGuard Tunnel Fallible Machine

/-- A member admitted by an invite of the owner, and the certificate minted for it. -/
structure Join where
  ownerPub : PublicKey
  identityKey : String
  attestation : JoinAttestation
  certificate : AdmittanceCertificate

/-- The join of a member of a device state, if it is admitted by its attestation. -/
def newJoin (env : Env) (store : Store) (ownerPub : PublicKey) (now : Time) (dm : DSMember) :
    Option Join :=
  if dm.isAdmin ∨ dm.admittance.isSome ∨ (existingAdmittance store dm.memberID).isSome then none
  else do
    let attestation ← dm.joinAttestation
    let certificate ← (admitMember env ownerPub now dm).toOption
    some ⟨ownerPub, dm.identityKey, attestation, certificate⟩

/-- The joins of the device state that an input applies. -/
def joinsOf (env : Env) (agent : Agent) (input : Input) : List Join :=
  match agent.appliedState env input, agent.store.pinnedAdminPubKey with
  | some st, some ownerPub => st.members.filterMap (newJoin env agent.store ownerPub input.now)
  | _, _ => []

/-- An installation and all joins so far. -/
structure Census where
  inst : Installation
  joins : List Join

namespace Census

/-- Before the first pairing. -/
def fresh : Census := ⟨⟨⟨.missing, .missing⟩, .stopped⟩, []⟩

/-- The joins of a step: messages are handled by the running agent only. -/
def joinsAt (env : Env) (inst : Installation) : Step → List Join
  | .handle input _ =>
      match inst.process with
      | .running agent => joinsOf env agent input
      | _ => []
  | _ => []

def step (env : Env) (c : Census) (s : Step) : Census :=
  { inst := c.inst.step env s, joins := c.joins ++ joinsAt env c.inst s }

theorem run_inst (env : Env) (c : Census) (steps : List Step) :
    (run (step env) c steps).inst = run (Installation.step env) c.inst steps := by
  induction steps generalizing c with
  | nil => rfl
  | cons s steps ih => exact ih (c.step env s)

theorem joins_handle {env : Env} {inst : Installation} {joins : List Join} {agent : Agent}
    (h : inst.process = .running agent) (input : Input) (saved : Bool) :
    (step env ⟨inst, joins⟩ (.handle input saved)).joins = joins ++ joinsOf env agent input := by
  rw [step, joinsAt, h]

end Census

/-- The invite was signed by the owner, and the certificate is for the same key. -/
def Join.Genuine (env : Env) (j : Join) : Prop :=
  InvitedBy env j.ownerPub j.attestation j.identityKey ∧ j.certificate.identityKey = j.identityKey

/-- What the agent signed for the certificate it signed for one of the joins. -/
def Logged (joins : List Join) (cert : AdmittanceCertificate) : Prop :=
  ∃ j ∈ joins, ∃ body, certSignedBytes j.certificate = .ok body ∧ certSignedBytes cert = .ok body

/-- The certificate is accepted for some member. -/
def Accepts (env : Env) (cert : AdmittanceCertificate) : Prop :=
  ∃ memberID identityKey,
    verifyAdmittanceCertificate env cert memberID identityKey env.agentKey.base64 = .ok ()

/-- Every certificate in the rows that the agent accepts is one it has signed. -/
def LoggedRows (env : Env) (joins : List Join) (rows : List MemberACLEntry) : Prop :=
  ∀ m ∈ rows, ∀ cert, m.admittance = some cert → Accepts env cert → Logged joins cert

/-- Every row but those of admins has a certificate that the agent accepts. -/
def AdmittedRows (env : Env) (rows : List MemberACLEntry) : Prop :=
  ∀ m ∈ rows, m.isAdmin = false → Admitted env m

variable {s : Store} {exec : List String → Bool} {input : Input} {key : PublicKey} {files : Files}

section Rows

variable {env : Env} {joins more : List Join} {old new : List MemberACLEntry}

theorem Logged.append {cert : AdmittanceCertificate} (h : Logged joins cert) :
    Logged (joins ++ more) cert := by
  obtain ⟨j, hj, hBody⟩ := h
  exact ⟨j, List.mem_append_left _ hj, hBody⟩

theorem LoggedRows.append (h : LoggedRows env joins old) : LoggedRows env (joins ++ more) old :=
  fun m hm cert hCert hAccepts => (h m hm cert hCert hAccepts).append

theorem LoggedRows.of_kin (h : LoggedRows env joins old) (hKin : Kin old new) :
    LoggedRows env joins new := by
  intro n hn cert hCert
  obtain ⟨m, hm, hSame⟩ := hKin n hn
  rw [hSame] at hCert
  exact h m hm cert hCert

theorem AdmittedRows.of_kin (h : AdmittedRows env old) (hKin : Kin old new) :
    AdmittedRows env new := by
  intro n hn hMember
  obtain ⟨m, hm, hSame⟩ := hKin n hn
  rw [hSame] at hMember ⊢
  exact h m hm hMember

/-- The owner row that a pairing installs has no certificate. -/
theorem LoggedRows.upsertMember {t : Store} {entry : MemberACLEntry}
    (h : LoggedRows env joins s.members) (hEntry : entry.admittance = none)
    (hUpsert : s.upsertMember entry = .ok t) : LoggedRows env joins t.members := by
  obtain ⟨_, _, hStore⟩ := Fallible.bind_eq_ok.mp hUpsert
  cases hStore
  intro m hm cert hCert hAccepts
  change m ∈ (if s.members.any (·.memberID = entry.memberID) then
      updateFirst (·.memberID = entry.memberID) (Store.mergeMember · entry) s.members
    else s.members ++ [entry]) at hm
  split at hm
  · rcases mem_updateFirst hm with hOld | ⟨existing, _, _, rfl⟩
    · exact h m hOld cert hCert hAccepts
    · have hNone : (Store.mergeMember existing entry).admittance = none := by
        unfold Store.mergeMember
        split <;> exact hEntry
      cases hNone.symm.trans hCert
  · rcases List.mem_append.mp hm with hOld | hNew
    · exact h m hOld cert hCert hAccepts
    · cases List.mem_singleton.mp hNew
      cases hEntry.symm.trans hCert

end Rows

variable {store : Store}

theorem newJoin_eq_some {env : Env} {ownerPub : PublicKey} {now : Time} {dm : DSMember} {j : Join}
    (h : newJoin env store ownerPub now dm = some j) : j.ownerPub = ownerPub ∧ j.Genuine env := by
  unfold newJoin at h
  split at h
  · cases h
  · obtain ⟨att, hAtt, h⟩ := Option.bind_eq_some_iff.mp h
    obtain ⟨cert, hCert, h⟩ := Option.bind_eq_some_iff.mp h
    cases h
    obtain ⟨att', hAtt', hInvited, hVerify⟩ := admitMember_eq_ok (Fallible.toOption_eq_some.mp hCert)
    cases hAtt.symm.trans hAtt'
    exact ⟨rfl, hInvited, (verifyAdmittanceCertificate_eq_ok hVerify).2.1⟩

theorem exists_newJoin {env : Env} {ownerPub : PublicKey} {now : Time} {dm : DSMember}
    {cert : AdmittanceCertificate} (hMember : dm.isAdmin = false)
    (hInbound : dm.admittance = none) (hExisting : existingAdmittance store dm.memberID = none)
    (hAdmit : admitMember env ownerPub now dm = .ok cert) :
    ∃ j, newJoin env store ownerPub now dm = some j ∧ j.certificate = cert := by
  obtain ⟨att, hAtt, _, _⟩ := admitMember_eq_ok hAdmit
  refine ⟨⟨ownerPub, dm.identityKey, att, cert⟩, ?_, rfl⟩
  unfold newJoin
  rw [if_neg (by simp [hMember, hInbound, hExisting]), hAtt, hAdmit]
  rfl

section Agent

variable {env : Env} {joins : List Join} {agent : Agent} {now : Time} {msg : TunnelMessage}

/-- The certificates in a device state that the agent accepts are ones it has signed. -/
def Unforged (env : Env) (joins : List Join) (input : Input) : Prop :=
  ∀ msg st, input.event = .deviceState msg → decodeDeviceState env msg = some st →
    ∀ dm ∈ st.members, ∀ cert, dm.admittance = some cert → Accepts env cert → Logged joins cert

/-- The rows of an applied state have certificates that came with it, were there before or
were minted for it. -/
theorem loggedRows_applied (a : Accepted env now agent msg)
    (hStore : LoggedRows env joins agent.store.members)
    (hInbound : ∀ dm ∈ a.st.members, ∀ cert, dm.admittance = some cert → Accepts env cert →
      Logged joins cert) :
    LoggedRows env (joins ++ a.st.members.filterMap (newJoin env agent.store a.ownerPub now))
      a.members := by
  intro m hm cert hCert hAccepts
  obtain ⟨dm, hdm, v, hRow, hVerify⟩ := a.exists_verified hm
  obtain ⟨admission, _, _, _, _, hAdmission, _, _, _, _, hEntry⟩ := verifyMember_eq_ok hVerify
  have hSame : admission.admittance = some cert := by
    rw [← hCert, hRow.1, hEntry]
  cases hMember : dm.isAdmin with
  | true =>
      rw [verifyAdmission, if_pos hMember] at hAdmission
      cases hAdmission
      cases hSame
  | false =>
      obtain ⟨cert', hSome, _, hCase⟩ := verifyAdmission_eq_ok hAdmission hMember
      cases hSome.symm.trans hSame
      rcases hCase with ⟨hGiven, _⟩ | ⟨hExisting, _⟩ | ⟨hNone, hNew, hAdmit⟩
      · exact (hInbound dm hdm cert hGiven hAccepts).append
      · obtain ⟨row, hLookup, hKept⟩ := Option.bind_eq_some_iff.mp hExisting
        exact (hStore row (Store.mem_of_lookupByMemberID hLookup) cert hKept hAccepts).append
      · obtain ⟨j, hJoin, rfl⟩ := exists_newJoin hMember hNone hNew hAdmit
        obtain ⟨_, _, _, hOwn⟩ := admitMember_eq_ok hAdmit
        obtain ⟨_, _, body, _, hBody, _, _⟩ := verifyAdmittanceCertificate_eq_ok hOwn
        exact ⟨j, List.mem_append_right _ (List.mem_filterMap.mpr ⟨dm, hdm, hJoin⟩), body, hBody, hBody⟩

/-- A step other than an apply leaves the rows but for their clients. -/
theorem kin_provision {req : ProvisionRequest} {nonces : StringMap NonceEntry} :
    Kin agent.store.members
      (Agent.addClientPeer env exec { agent with nonces := nonces } req).1.store.members := by
  have hCase := addClientPeer_cases env exec { agent with nonces := nonces } req
  generalize (Agent.addClientPeer env exec { agent with nonces := nonces } req).1 = after at hCase ⊢
  have hAdded : ∀ {rec : ClientRecord} {store : Store} {known : Bool},
      agent.store.addClient req.memberID rec = (store, known) → Kin agent.store.members store.members := by
    intro rec store known hAdd
    have hKin := Store.kin_addClient agent.store req.memberID rec
    rwa [hAdd] at hKin
  cases hCase with
  | noAddress hNone => exact Kin.refl _
  | unknownMember allocator ip store hAllocate hAdd => exact hAdded hAdd
  | peerRefused allocator ip store e hAllocate hAdd hPeer =>
      exact (hAdded hAdd).trans (Store.kin_removeClient store _ _)
  | installed allocator ip store peers hAllocate hAdd hPeer => exact hAdded hAdd

/-- The rows of an agent and the joins they go back to. -/
structure Records (env : Env) (joins : List Join) (agent : Agent) : Prop where
  logged : LoggedRows env joins agent.store.members
  admitted : agent.store.pinnedAdminPubKey.isSome = true → AdmittedRows env agent.store.members

theorem Records.of_kin {next : Agent} {more : List Join} (h : Records env joins agent)
    (hKin : Kin agent.store.members next.store.members)
    (hPin : next.store.pinnedAdminPubKey = agent.store.pinnedAdminPubKey) :
    Records env (joins ++ more) next :=
  ⟨(h.logged.of_kin hKin).append, fun hSome => (h.admitted (hPin ▸ hSome)).of_kin hKin⟩

theorem Records.step (h : Records env joins agent) (hInput : Unforged env joins input) :
    Records env (joins ++ joinsOf env agent input) (agent.step env input) := by
  have hPin := step_pinned env agent input
  have hCase := step_effect env agent input
  generalize agent.step env input = next at hCase hPin ⊢
  cases hCase with
  | quiet nonces live => exact h.of_kin (Kin.refl _) hPin
  | unbound msg hEvent c => exact h.of_kin (Kin.refl _) hPin
  | applied msg hEvent a =>
      have hMembers : (a.result input.exec).store.members = a.members := by
        rw [a.result_store]
        exact a.store_members.1
      constructor
      · rw [hMembers, joinsOf, appliedState_of_accepted hEvent a, a.pinned]
        exact loggedRows_applied a h.logged fun dm hdm => hInput msg a.st hEvent a.decodes dm hdm
      · intro _ m hm
        rw [hMembers] at hm
        obtain ⟨_, _, _, hRow⟩ := a.authorisedRow hm
        exact hRow.admitted
  | provisioned msg hEvent nonces req hPasses => exact h.of_kin kin_provision hPin
  | dropped live hEvent hTrip => exact h.of_kin (Kin.refl _) hPin

theorem joinsOf_genuine {j : Join} (hj : j ∈ joinsOf env agent input) :
    agent.store.pinnedAdminPubKey = some j.ownerPub ∧ j.Genuine env := by
  unfold joinsOf at hj
  split at hj
  next st ownerPub _ hPin =>
    obtain ⟨dm, _, hJoin⟩ := List.mem_filterMap.mp hj
    obtain ⟨rfl, hGenuine⟩ := newJoin_eq_some hJoin
    exact ⟨hPin, hGenuine⟩
  · cases hj

end Agent

section Installation

variable {env : Env} {joins : List Join}

def fileRows : File PersistedState → List MemberACLEntry
  | .parsed state => state.members
  | _ => []

def Process.rows : Process → List MemberACLEntry
  | .stopped => []
  | .paired store => store.members
  | .running agent => agent.store.members

def Process.pin : Process → Option PublicKey
  | .stopped => none
  | .paired store => store.pinnedAdminPubKey
  | .running agent => agent.store.pinnedAdminPubKey

theorem bytes_of_loadPin {pub : Bytes}
    (h : Store.loadPin (.parsed ⟨encode64 pub⟩) = .ok (some key)) : key.bytes = pub := by
  unfold Store.loadPin at h
  dsimp only at h
  split at h
  · cases h
  · split at h
    next k hKey =>
      cases h
      rw [decodeEd25519, decode64_encode64, Option.bind_some] at hKey
      split at hKey
      · cases hKey
        rfl
      · cases hKey
    · cases h

theorem loadPin_base64 (key : PublicKey) : Store.loadPin (.parsed ⟨key.base64⟩) = .ok (some key) := by
  unfold Store.loadPin
  dsimp only
  rw [if_neg (base64_ne_empty key), decodeEd25519_base64]

/-- What an attempt to pin the owner leaves on disk and in the store. -/
theorem PinOutcome.spec {store : Store} {r : PairResult} {entry : MemberACLEntry}
    {writes : Writes} {result : Files × Option Store}
    (h : PinOutcome files store r entry writes result) (hEntry : entry.admittance = none)
    (hFile : LoggedRows env joins (fileRows files.acl))
    (hStore : LoggedRows env joins store.members) :
    (∀ key, Store.loadPin result.1.pin = .ok (some key) →
      Store.loadPin files.pin = .ok (some key) ∨ key.bytes = r.ownerIdentityPubkey) ∧
    LoggedRows env joins (fileRows result.1.acl) ∧
    ∀ t, result.2 = some t → LoggedRows env joins t.members ∧
      ∀ key, t.pinnedAdminPubKey = some key → Store.loadPin result.1.pin = .ok (some key) := by
  have hPinned : ∀ pinned : Store, store.setPinnedAdminPublicKey r.ownerIdentityPubkey = .ok pinned →
      LoggedRows env joins pinned.members ∧ ∀ key, pinned.pinnedAdminPubKey = some key →
        Store.loadPin (.parsed ⟨encode64 r.ownerIdentityPubkey⟩) = .ok (some key) := by
    intro pinned hPin
    obtain ⟨key, hBytes, rfl⟩ := setPinnedAdminPublicKey_eq_ok hPin
    refine ⟨hStore, ?_⟩
    rintro _ ⟨⟩
    rw [← hBytes]
    exact loadPin_base64 key
  cases h with
  | refused => exact ⟨fun key hKey => Or.inl hKey, hFile, fun t ht => by cases ht⟩
  | conflict pinned hPin =>
      exact ⟨fun key hKey => Or.inr (bytes_of_loadPin hKey), hFile, fun t ht => by cases ht⟩
  | unlisted pinned hPin hOwner =>
      refine ⟨fun key hKey => Or.inr (bytes_of_loadPin hKey), hFile, ?_⟩
      rintro _ ⟨⟩
      exact hPinned pinned hPin
  | listed pinned t hPin hOwner hUpsert =>
      have hRows := (hPinned pinned hPin).1.upsertMember hEntry hUpsert
      refine ⟨fun key hKey => Or.inr (bytes_of_loadPin hKey), ?_, ?_⟩
      · dsimp only
        split
        · exact hRows
        · exact hFile
      · rintro _ ⟨⟩
        refine ⟨hRows, fun key hKey => (hPinned pinned hPin).2 key ?_⟩
        obtain ⟨_, _, hSame⟩ := Fallible.bind_eq_ok.mp hUpsert
        cases hSame
        exact hKey

theorem load_pin {pin : File AdminPinFile} {acl : File PersistedState}
    (h : (s.load pin acl).1.pinnedAdminPubKey = some key) :
    Store.loadPin pin = .ok (some key) ∨ s.pinnedAdminPubKey = some key := by
  unfold Store.load at h
  cases hPin : Store.loadPin pin with
  | error e =>
      rw [hPin] at h
      exact Or.inr h
  | ok pub =>
      rw [hPin] at h
      cases acl <;> exact Or.inl (congrArg Except.ok h)

theorem load_rows {pin : File AdminPinFile} {acl : File PersistedState} {m : MemberACLEntry}
    (h : m ∈ (s.load pin acl).1.members) : m ∈ fileRows acl ++ s.members := by
  rw [List.mem_append]
  unfold Store.load at h
  cases hPin : Store.loadPin pin with
  | error e =>
      rw [hPin] at h
      exact Or.inr h
  | ok pub =>
      rw [hPin] at h
      cases acl with
      | missing => cases h
      | invalid => exact Or.inr h
      | parsed state => exact Or.inl h

theorem admitted_of_reverifies {m : MemberACLEntry} (h : reverifies env m = true)
    (hMember : m.isAdmin = false) : Admitted env m := by
  rw [reverifies, hMember, Bool.false_or] at h
  split at h
  · cases h
  next cert hCert =>
    refine ⟨cert, hCert, ?_⟩
    cases hVerify : verifyAdmittanceCertificate env cert m.memberID m.identityKey
        env.agentKey.base64 with
    | error e =>
        rw [hVerify] at h
        cases h
    | ok u => rfl

theorem loadStore_spec (env : Env) (files : Files) (store : Store) :
    Kin (fileRows files.acl ++ store.members) (loadStore env files store).members ∧
    (∀ key, (loadStore env files store).pinnedAdminPubKey = some key →
      Store.loadPin files.pin = .ok (some key) ∨ store.pinnedAdminPubKey = some key) ∧
    ((loadStore env files store).pinnedAdminPubKey.isSome = true →
      AdmittedRows env (loadStore env files store).members) := by
  have hLoaded : Kin (fileRows files.acl ++ store.members) (store.load files.pin files.acl).1.members :=
    kin_of_subset fun m hm => load_rows hm
  unfold loadStore
  dsimp only
  split
  next hSome =>
    obtain ⟨hPin, _⟩ := Store.dropMembersFailing_spec (store.load files.pin files.acl).1 (reverifies env)
    rw [hPin]
    have hKept : ∀ m ∈ ((store.load files.pin files.acl).1.dropMembersFailing
        (reverifies env)).1.members,
        m ∈ (store.load files.pin files.acl).1.members ∧ reverifies env m = true := by
      intro m hm
      unfold Store.dropMembersFailing at hm
      dsimp only at hm
      split at hm
      next hNone =>
        refine ⟨hm, ?_⟩
        by_contra hFails
        have hDropped : m ∈ (store.load files.pin files.acl).1.members.filter (! reverifies env ·) :=
          List.mem_filter.mpr ⟨hm, by simpa using hFails⟩
        rw [hNone] at hDropped
        cases hDropped
      · exact List.mem_filter.mp hm
    exact ⟨hLoaded.trans (kin_of_subset fun m hm => (hKept m hm).1), fun key hKey => load_pin hKey,
      fun _ m hm hMember => admitted_of_reverifies (hKept m hm).2 hMember⟩
  next hNone =>
    exact ⟨hLoaded, fun key hKey => load_pin hKey, fun hSome => absurd hSome hNone⟩

/-- The pin and the rows that startup leaves. -/
theorem startup_spec {leases : List (String × String)} {store : Store} {agent : Agent}
    (h : startup env exec leases files store = some agent) :
    Kin (loadStore env files store).members agent.store.members ∧
      agent.store.pinnedAdminPubKey = (loadStore env files store).pinnedAdminPubKey := by
  refine reconcilePeers_preserves (P := fun s =>
    Kin (loadStore env files store).members s.members ∧
      s.pinnedAdminPubKey = (loadStore env files store).pinnedAdminPubKey)
    (fun s memberID rec hs => ?_) ⟨Kin.refl _, rfl⟩ h
  exact ⟨hs.1.trans (Store.kin_addClient s memberID rec),
    (Store.addClient_spec s memberID rec).1.trans hs.2⟩

end Installation

namespace Census

variable {env : Env}

/-- The steps that count: nobody else writes to the files or the store, and certificates
are not forged. -/
def Genuine (env : Env) (c : Census) : Step → Prop
  | .writeFiles _ => False
  | .storeOp _ => False
  | .handle input _ => Unforged env c.joins input
  | _ => True

/-- All joins so far are of the owner who pairs. -/
def OwnerKept (c : Census) : Step → Prop
  | .pairDaemon r _ => ∀ j ∈ c.joins, j.ownerPub.bytes = r.ownerIdentityPubkey
  | .pairCommand r _ => ∀ j ∈ c.joins, j.ownerPub.bytes = r.ownerIdentityPubkey
  | _ => True

/-- The pin of the daemon is the one on disk, the joins are those of its owner, and every
certificate the agent accepts goes back to a join. -/
structure Sound (env : Env) (c : Census) : Prop where
  genuine : ∀ j ∈ c.joins, j.Genuine env
  owner : ∀ key, Store.loadPin c.inst.files.pin = .ok (some key) → ∀ j ∈ c.joins, j.ownerPub = key
  pinned : ∀ key, c.inst.process.pin = some key → Store.loadPin c.inst.files.pin = .ok (some key)
  disk : LoggedRows env c.joins (fileRows c.inst.files.acl)
  rows : LoggedRows env c.joins c.inst.process.rows
  admitted : ∀ agent, c.inst.process = .running agent →
    agent.store.pinnedAdminPubKey.isSome = true → AdmittedRows env agent.store.members

theorem ownerPub_eq {joins : List Join} {pub : Bytes}
    (hOwner : ∀ j ∈ joins, j.ownerPub.bytes = pub) (hKey : key.bytes = pub) :
    ∀ j ∈ joins, j.ownerPub = key := by
  intro j hj
  have hBytes := (hOwner j hj).trans hKey.symm
  cases hFirst : j.ownerPub
  cases key
  rw [hFirst] at hBytes
  cases hBytes
  rfl

variable {c : Census} {r : PairResult} {writes : Writes}

/-- The files and the process after an attempt to pin the owner. -/
theorem Sound.pair (h : Sound env c) {store : Store} (entry : MemberACLEntry)
    (hEntry : entry.admittance = none)
    (hOwner : ∀ j ∈ c.joins, j.ownerPub.bytes = r.ownerIdentityPubkey)
    (hStore : LoggedRows env c.joins store.members) {result : Files × Option Store}
    (hOutcome : PinOutcome c.inst.files store r entry writes result) :
    (∀ key, Store.loadPin result.1.pin = .ok (some key) → ∀ j ∈ c.joins, j.ownerPub = key) ∧
    LoggedRows env c.joins (fileRows result.1.acl) ∧
    ∀ t, result.2 = some t → LoggedRows env c.joins t.members ∧
      ∀ key, t.pinnedAdminPubKey = some key → Store.loadPin result.1.pin = .ok (some key) := by
  obtain ⟨hPin, hDisk, hPaired⟩ := hOutcome.spec hEntry h.disk hStore
  refine ⟨fun key hKey => ?_, hDisk, hPaired⟩
  rcases hPin key hKey with hOld | hNew
  · exact h.owner key hOld
  · exact ownerPub_eq hOwner hNew

theorem Sound.pairDaemon (h : Sound env c) (hStopped : c.inst.process = .stopped)
    (hOwner : ∀ j ∈ c.joins, j.ownerPub.bytes = r.ownerIdentityPubkey) :
    Sound env ⟨c.inst.step env (.pairDaemon r writes), c.joins⟩ := by
  obtain ⟨hPin, hDisk, hPaired⟩ := h.pair r.ownerEntry rfl hOwner
    (fun m hm => by cases hm) (pinOwner_outcome c.inst.files Store.new r r.ownerEntry writes)
  dsimp only [Installation.step]
  rw [hStopped]
  dsimp only
  rcases hResult : pinOwner c.inst.files Store.new r r.ownerEntry writes with ⟨files, _ | t⟩ <;>
    rw [hResult] at hPin hDisk hPaired
  · refine ⟨h.genuine, hPin, ?_, hDisk, ?_, ?_⟩
    · rintro key ⟨⟩
    · intro m hm
      cases hm
    · rintro agent ⟨⟩
  · obtain ⟨hRows, hOnDisk⟩ := hPaired t rfl
    exact ⟨h.genuine, hPin, hOnDisk, hDisk, hRows, fun agent hAgent => by cases hAgent⟩

/-- With a pin in the daemon the pin file is there, and the `pair` command gives up. -/
theorem Sound.pairCommand (h : Sound env c)
    (hOwner : ∀ j ∈ c.joins, j.ownerPub.bytes = r.ownerIdentityPubkey) :
    Sound env ⟨c.inst.step env (.pairCommand r writes), c.joins⟩ := by
  have hLoaded : LoggedRows env c.joins (Store.new.load c.inst.files.pin c.inst.files.acl).1.members := by
    intro m hm
    rcases List.mem_append.mp (load_rows hm) with hFile | hNone
    · exact h.disk m hFile
    · cases hNone
  have hOutcome := pinOwner_outcome c.inst.files
    (Store.new.load c.inst.files.pin c.inst.files.acl).1 r r.commandEntry writes
  obtain ⟨hPin, hDisk, _⟩ := h.pair r.commandEntry rfl hOwner hLoaded hOutcome
  refine ⟨h.genuine, hPin, fun key hKey => ?_, hDisk, h.rows, h.admitted⟩
  have hFile := h.pinned key hKey
  have hSet : (Store.new.load c.inst.files.pin c.inst.files.acl).1.pinnedAdminPubKey = some key := by
    unfold Store.load
    rw [hFile]
    cases c.inst.files.acl <;> rfl
  have hRefused : ∀ pinned : Store, (Store.new.load c.inst.files.pin
      c.inst.files.acl).1.setPinnedAdminPublicKey r.ownerIdentityPubkey ≠ .ok pinned := by
    intro pinned
    unfold Store.setPinnedAdminPublicKey
    split
    · rw [hSet]
      simp
    · simp
  change Store.loadPin (pinOwner c.inst.files _ r r.commandEntry writes).1.pin = _
  generalize pinOwner c.inst.files (Store.new.load c.inst.files.pin c.inst.files.acl).1 r r.commandEntry
    writes = result at hOutcome ⊢
  cases hOutcome with
  | refused => exact hFile
  | conflict pinned hPin => exact absurd hPin (hRefused pinned)
  | unlisted pinned hPin hOwner => exact absurd hPin (hRefused pinned)
  | listed pinned t hPin hOwner hUpsert => exact absurd hPin (hRefused pinned)

theorem Sound.start (h : Sound env c) {leases : List (String × String)} {agent : Agent}
    (hStart : startup env exec leases c.inst.files c.inst.process.storeAtLoad = some agent)
    (saved : Bool) : Sound env ⟨⟨c.inst.save agent.store saved, .running agent⟩, c.joins⟩ := by
  obtain ⟨hKin, hPin⟩ := startup_spec hStart
  obtain ⟨hLoaded, hLoadedPin, hLoadedAdmitted⟩ :=
    loadStore_spec env c.inst.files c.inst.process.storeAtLoad
  have hPinFile : (c.inst.save agent.store saved).pin = c.inst.files.pin := by
    rw [Installation.save]
    split <;> rfl
  have hStore : LoggedRows env c.joins c.inst.process.storeAtLoad.members := by
    cases hProcess : c.inst.process with
    | stopped => exact fun m hm => by cases hm
    | paired store =>
        have hRows := h.rows
        rw [hProcess] at hRows
        exact hRows
    | running agent => exact fun m hm => by cases hm
  have hRows : LoggedRows env c.joins agent.store.members := by
    refine LoggedRows.of_kin (fun m hm => ?_) (hLoaded.trans hKin)
    rcases List.mem_append.mp hm with hFile | hOld
    · exact h.disk m hFile
    · exact hStore m hOld
  refine ⟨h.genuine, ?_, ?_, ?_, hRows, ?_⟩
  · rw [hPinFile]
    exact h.owner
  · intro key hKey
    rw [hPinFile]
    rcases hLoadedPin key (hPin ▸ hKey) with hDisk | hOld
    · exact hDisk
    · refine h.pinned key ?_
      cases hProcess : c.inst.process with
      | stopped =>
          rw [hProcess] at hOld
          cases hOld
      | paired store =>
          rw [hProcess] at hOld
          exact hOld
      | running agent =>
          rw [hProcess] at hOld
          cases hOld
  · rw [Installation.save]
    split
    · exact hRows
    · exact h.disk
  · rintro _ ⟨⟩ hSome
    exact (hLoadedAdmitted (hPin ▸ hSome)).of_kin hKin

theorem Sound.handle (h : Sound env c) {agent : Agent}
    (hRunning : c.inst.process = .running agent) (hInput : Unforged env c.joins input)
    (saved : Bool) :
    Sound env ⟨⟨c.inst.save (agent.step env input).store saved, .running (agent.step env input)⟩,
      c.joins ++ joinsOf env agent input⟩ := by
  have hBefore : Records env c.joins agent := by
    have hRows := h.rows
    rw [hRunning] at hRows
    exact ⟨hRows, h.admitted agent hRunning⟩
  have hAfter := hBefore.step hInput
  have hPinFile : (c.inst.save (agent.step env input).store saved).pin = c.inst.files.pin := by
    rw [Installation.save]
    split <;> rfl
  have hPinned : ∀ key, agent.store.pinnedAdminPubKey = some key →
      Store.loadPin c.inst.files.pin = .ok (some key) := by
    intro key hKey
    exact h.pinned key (by rw [hRunning]; exact hKey)
  refine ⟨?_, ?_, ?_, ?_, hAfter.logged, ?_⟩
  · intro j hj
    rcases List.mem_append.mp hj with hOld | hNew
    · exact h.genuine j hOld
    · exact (joinsOf_genuine hNew).2
  · intro key hKey j hj
    rw [hPinFile] at hKey
    rcases List.mem_append.mp hj with hOld | hNew
    · exact h.owner key hKey j hOld
    · -- A new join is of the owner pinned in the agent, whose key is the one on disk.
      have hSame := (hPinned _ (joinsOf_genuine hNew).1).symm.trans hKey
      exact Option.some.inj (Except.ok.inj hSame)
  · intro key hKey
    rw [hPinFile]
    exact hPinned key ((step_pinned env agent input).symm.trans hKey)
  · rw [Installation.save]
    split
    · exact hAfter.logged
    · exact h.disk.append
  · rintro _ ⟨⟩ hSome
    exact hAfter.admitted hSome

/-- Ending the process and removing the pin file keep what there is to keep. -/
theorem Sound.stopped (h : Sound env c) (hAcl : files.acl = c.inst.files.acl)
    (hPin : files.pin = c.inst.files.pin ∨ files.pin = .missing) :
    Sound env ⟨⟨files, .stopped⟩, c.joins⟩ := by
  refine ⟨h.genuine, ?_, (by rintro key ⟨⟩), ?_, (by rintro m ⟨⟩), (by rintro agent ⟨⟩)⟩
  · intro key hKey
    rcases hPin with hSame | hMissing
    · exact h.owner key (hSame ▸ hKey)
    · dsimp only at hKey
      rw [hMissing] at hKey
      cases hKey
  · dsimp only
    rw [hAcl]
    exact h.disk

theorem Sound.step (h : Sound env c) {s : Step} (hGenuine : Genuine env c s)
    (hOwner : OwnerKept c s) : Sound env (c.step env s) := by
  have hIdle : Sound env ⟨c.inst, c.joins ++ []⟩ := by
    rw [List.append_nil]
    exact h
  obtain ⟨⟨files, process⟩, joins⟩ := c
  cases s with
  | writeFiles files => exact hGenuine.elim
  | storeOp op => exact hGenuine.elim
  | pairDaemon r writes =>
      cases process with
      | stopped =>
          dsimp only [Census.step, joinsAt]
          rw [List.append_nil]
          exact h.pairDaemon rfl hOwner
      | paired store => exact hIdle
      | running agent => exact hIdle
  | pairCommand r writes =>
      dsimp only [Census.step, joinsAt]
      rw [List.append_nil]
      exact h.pairCommand hOwner
  | start exec leases saved =>
      cases process with
      | stopped =>
          dsimp only [Census.step, joinsAt, Installation.step]
          rw [List.append_nil]
          cases hStart : startup env exec leases files Process.stopped.storeAtLoad with
          | none => exact h.stopped rfl (Or.inl rfl)
          | some agent => exact h.start hStart saved
      | paired store =>
          dsimp only [Census.step, joinsAt, Installation.step]
          rw [List.append_nil]
          cases hStart : startup env exec leases files (Process.paired store).storeAtLoad with
          | none => exact h.stopped rfl (Or.inl rfl)
          | some agent => exact h.start hStart saved
      | running agent => exact hIdle
  | handle input saved =>
      cases process with
      | stopped => exact hIdle
      | paired store => exact hIdle
      | running agent => exact h.handle rfl hGenuine saved
  | unpair now msg removed =>
      cases process with
      | stopped => exact hIdle
      | paired store => exact hIdle
      | running agent =>
          dsimp only [Census.step, joinsAt, Installation.step]
          rw [List.append_nil]
          split
          · refine h.stopped ?_ ?_
            · split <;> rfl
            · split
              · exact Or.inr rfl
              · exact Or.inl rfl
          · exact h
  | stop =>
      dsimp only [Census.step, joinsAt, Installation.step]
      rw [List.append_nil]
      exact h.stopped rfl (Or.inl rfl)

theorem sound_fresh (env : Env) : Sound env fresh :=
  ⟨(by rintro j ⟨⟩), (by rintro key ⟨⟩), (by rintro key ⟨⟩), (by rintro m ⟨⟩), (by rintro m ⟨⟩),
    (by rintro agent ⟨⟩)⟩

end Census

/-- In every run in which a pairing is with the owner of all joins before it, each member
of the running agent that is not an admin joined with an invite of the owner whose key is
pinned now. -/
theorem admission_anchored (env : Env) (steps : List Step)
    (hSteps : Meets (Census.step env) (fun c s => c.Genuine env s ∧ c.OwnerKept s)
      Census.fresh steps)
    (agent : Agent) (key : PublicKey)
    (hRunning : (run (Census.step env) Census.fresh steps).inst.process = .running agent)
    (hPin : agent.store.pinnedAdminPubKey = some key) :
    ∀ m ∈ agent.store.members, m.isAdmin = false →
      ∃ j ∈ (run (Census.step env) Census.fresh steps).joins,
        j.ownerPub = key ∧ j.identityKey = m.identityKey ∧
          InvitedBy env key j.attestation m.identityKey := by
  have hSound : (run (Census.step env) Census.fresh steps).Sound env :=
    invariant_run (Census.Sound env) (fun _ _ h hStep => h.step hStep.1 hStep.2)
      (Census.sound_fresh env) hSteps
  intro m hm hMember
  obtain ⟨cert, hCert, hVerify⟩ := hSound.admitted agent hRunning (by rw [hPin]; rfl) m hm hMember
  have hRows := hSound.rows
  have hPinned := hSound.pinned key
  rw [hRunning] at hRows hPinned
  obtain ⟨j, hj, body, hSigned, hBody⟩ := hRows m hm cert hCert ⟨_, _, hVerify⟩
  obtain ⟨hInvited, hKey⟩ := hSound.genuine j hj
  have hOwner : j.ownerPub = key := hSound.owner key (hPinned hPin) j hj
  have hSame : j.identityKey = m.identityKey := calc
    j.identityKey = j.certificate.identityKey := hKey.symm
    _ = cert.identityKey := identityKey_eq_of_signedBytes hSigned hBody
    _ = m.identityKey := (verifyAdmittanceCertificate_eq_ok hVerify).2.1
  rw [hOwner, hSame] at hInvited
  exact ⟨j, hj, hOwner, hSame, hInvited⟩

/-- The document of a sample invite. -/
def sampleInviteDoc : Json.Doc :=
  .obj [("invitePub", .str (sampleKey 5).base64), ("nasPubkey", .str (sampleKey 7).base64)]

/-- An invite of the owner that a member has accepted. -/
def sampleInvite (owner member : PublicKey) : JoinAttestation :=
  let payload := sampleInviteDoc.print true
  { invitePayload := encode64 payload
    ownerSig := encode64 (sampleSignature owner ((Canonjson.marshalRaw payload).toOption.getD []))
    acceptanceSig := encode64 (sampleSignature (sampleKey 5) member.bytes) }

def sampleInvitePayload : InvitePayload :=
  { inviteID := "", deviceID := "", nasPubkey := (sampleKey 7).base64, allowedAppIDs := none,
    expiresAt := "", tokenHash := "", invitePub := (sampleKey 5).base64 }

theorem height_sampleInviteDoc : sampleInviteDoc.height ≤ Json.maxNestingDepth := by
  simp [sampleInviteDoc, Json.Doc.height, Json.Doc.heightMembers, Json.maxNestingDepth]

theorem marshalRaw_sampleInviteDoc : Canonjson.marshalRaw (sampleInviteDoc.print true) =
    .ok (sampleInviteDoc.tree.print false) :=
  Canonjson.marshalRaw_print true height_sampleInviteDoc rfl

theorem unmarshal_sampleInviteDoc :
    InvitePayload.unmarshal (sampleInviteDoc.print true) = some sampleInvitePayload := by
  rw [InvitePayload.unmarshal, Json.unmarshal, Json.parseWhole_print true height_sampleInviteDoc]
  rfl

theorem sampleInvite_eq (owner member : PublicKey) : sampleInvite owner member =
    { invitePayload := encode64 (sampleInviteDoc.print true)
      ownerSig := encode64 (sampleSignature owner (sampleInviteDoc.tree.print false))
      acceptanceSig := encode64 (sampleSignature (sampleKey 5) member.bytes) } := by
  simp only [sampleInvite, marshalRaw_sampleInviteDoc]
  rfl

/-- A sample invite is accepted by the agent it is for. -/
theorem verifyJoinAttestation_sample (states : List DeviceState) (owner key : PublicKey) (now : Time)
    {member : MemberACLEntry} (hAtt : member.joinAttestation = some (sampleInvite owner key))
    (hKey : member.identityKey = key.base64) :
    verifyJoinAttestation (sampleEnv states) member (some owner) (sampleKey 7).base64 now =
      .ok sampleInvitePayload := by
  have hDoc : sampleInviteDoc.print true ≠ [] := List.cons_ne_nil _ _
  unfold verifyJoinAttestation
  rw [hAtt, sampleInvite_eq, hKey]
  -- The checks in the order of the code.
  refine bind_eq_ok.mpr ⟨_, rfl, ?_⟩
  refine ensure_then ⟨encode64_ne_empty hDoc, sampleSignature_ne_empty _ _,
    sampleSignature_ne_empty _ _⟩ ?_
  refine require_then (decode64_encode64 _) ?_
  refine require_then (toOption_eq_some.mpr marshalRaw_sampleInviteDoc) ?_
  refine require_then (decode64_encode64 _) ?_
  refine bind_eq_ok.mpr ⟨owner, rfl, ?_⟩
  refine bind_eq_ok.mpr ⟨(), ensure_eq_ok.mpr (decide_eq_true rfl), ?_⟩
  refine require_then unmarshal_sampleInviteDoc ?_
  refine ensure_then (base64_ne_empty _) ?_
  refine bind_eq_ok.mpr ⟨(), rfl, ?_⟩
  refine ensure_then (base64_ne_empty _) ?_
  refine ensure_then (base64_ne_empty _) ?_
  refine ensure_then rfl ?_
  refine require_then (decodeEd25519_base64 _) ?_
  refine require_then (decodeEd25519_base64 _) ?_
  refine require_then (decode64_encode64 _) ?_
  exact bind_eq_ok.mpr ⟨(), ensure_eq_ok.mpr (decide_eq_true rfl), rfl⟩

/-- A member with a sample invite and no certificate. -/
def invitedMember (owner key : PublicKey) : DSMember :=
  { sampleMember key [] none with
    admittance := none
    joinAttestation := some (sampleInvite owner key) }

/-- The certificate it is admitted with. -/
def invitedAdmittance (states : List DeviceState) (key : PublicKey) (now : Time) :
    Option AdmittanceCertificate :=
  (mintAdmittanceCertificate (sampleEnv states) "b" key.base64 (sampleKey 7).base64
    (sampleInviteDoc.print true) none now).toOption

theorem verifyAdmission_invitedMember (states : List DeviceState) (owner key : PublicKey)
    (now : Time) (hNew : existingAdmittance store "b" = none) :
    verifyAdmission (sampleEnv states) store owner now (invitedMember owner key) =
      .ok ⟨invitedAdmittance states key now, [], invitedAdmittance states key now⟩ := by
  obtain ⟨cert, hMint⟩ := mint_sample states (show "b" ≠ "" by decide) key
    (show sampleInviteDoc.print true ≠ [] from List.cons_ne_nil _ _) none now
  have hCert : invitedAdmittance states key now = some cert := by
    rw [invitedAdmittance, hMint]
    rfl
  have hApps : cert.initialAllowedAppIDs = some [] := (verifyAdmittanceCertificate_mint hMint).2
  have hAdmit : admitMember (sampleEnv states) owner now (invitedMember owner key) = .ok cert :=
    bind_eq_ok.mpr ⟨_, rfl, bind_eq_ok.mpr ⟨_, mapError_eq_ok.mpr
      (verifyJoinAttestation_sample states owner key now rfl rfl), bind_eq_ok.mpr
        ⟨sampleInviteDoc.print true, require_eq_ok.mpr (decode64_encode64 _),
          mapError_eq_ok.mpr hMint⟩⟩⟩
  have hMember : (invitedMember owner key).isAdmin = false := rfl
  have hNone : (invitedMember owner key).admittance = none := rfl
  have hID : (invitedMember owner key).memberID = "b" := rfl
  rw [verifyAdmission, if_neg (by simp [hMember]), hNone]
  dsimp only
  rw [hID, hNew, hCert]
  refine bind_eq_ok.mpr ⟨cert, hAdmit, ?_⟩
  rw [Admission.ofCertificate, hApps]
  rfl

/-- What the verification makes of it. -/
def invitedRow (states : List DeviceState) (owner key : PublicKey) (now : Time) : VerifiedMember :=
  { sampleRow (invitedMember owner key) [] "active" [] with
    entry.admittance := invitedAdmittance states key now
    pending := invitedAdmittance states key now }

theorem verifyMember_invitedMember (states : List DeviceState) (owner key : PublicKey)
    (now : Time) (apps : List App) (hNew : existingAdmittance store "b" = none) :
    verifyMember (sampleEnv states) store owner now apps (invitedMember owner key) =
      .ok (invitedRow states owner key now) := by
  have hAdmission := verifyAdmission_invitedMember states owner key now hNew
  exact verifyMember_admitted (show "b" ≠ "" by decide) rfl hAdmission rfl rfl rfl

/-- The owner, and a member that joins. -/
def joiningState : DeviceState :=
  { deviceID := "d", generation := 1
    members := [sampleOwner (sampleKey 1) [], invitedMember (sampleKey 1) (sampleKey 2)], apps := [] }

def joiningEnv : Env := sampleEnv [joiningState]

def joiningInput : Input := .succeeding 0 (.deviceState (sampleState joiningState))

/-- The state carries no certificate at all. -/
theorem joiningInput_unforged (joins : List Join) : Unforged joiningEnv joins joiningInput := by
  rintro msg st ⟨⟩ hDecode dm hdm cert hCert
  cases (decodeDeviceState_sample (reads_head joiningState [])).symm.trans hDecode
  rcases List.mem_cons.mp hdm with rfl | hMember
  · cases hCert
  · cases List.mem_singleton.mp hMember
    cases hCert

/-- The owner pairs, the daemon starts and the member joins. -/
def joining : List Step :=
  [.pairDaemon (samplePairing (sampleKey 1) "a") ⟨true, true⟩, .start (fun _ => true) [] true,
    .handle joiningInput true]

/-- The owner unpairs, another owner pairs with the `pair` command, and the daemon
starts. -/
def succession : List Step := joining ++
  [.unpair 100000000000 (sampleCommand (sampleKey 1) "a" "c1" (.obj [("deviceId", .str "d"),
      ("intent", .str "unpair-device-d-100"), ("ts", .num (Json.Number.ofInt 100))])) true,
    .pairCommand (samplePairing (sampleKey 3) "o") ⟨true, true⟩,
    .start (fun _ => true) [] true]

/-- The agent once the owner has paired and the daemon has started. -/
def pairedInstallation : Installation :=
  run (Installation.step joiningEnv) ⟨⟨.missing, .missing⟩, .stopped⟩ (joining.take 2)

def pairedAgent : Agent := pairedInstallation.process.agent?.getD (.fresh joiningEnv none)

theorem pairedInstallation_running : pairedInstallation.process = .running pairedAgent := by
  have hRunning : pairedInstallation.process.agent?.isSome = true := by decide +kernel
  obtain ⟨agent, hAgent⟩ := Option.isSome_iff_exists.mp hRunning
  rw [pairedAgent, hAgent]
  exact Process.eq_running hAgent

theorem pairedAgent_pin : pairedAgent.store.pinnedAdminPubKey = some (sampleKey 1) := by
  decide +kernel

/-- The agent after the member has joined. -/
def joinedAgent : Agent :=
  (completeApply joiningEnv (fun _ => true) (pairedAgent.install joiningEnv 0 1
    ⟨[], [sampleRow (sampleOwner (sampleKey 1) []) [] "active" [],
      invitedRow [joiningState] (sampleKey 1) (sampleKey 2) 0]⟩)).1

theorem beginState_joining : pairedAgent.beginState joiningEnv 0 joiningState =
    pairedAgent.install joiningEnv 0 1 ⟨[], [sampleRow (sampleOwner (sampleKey 1) []) [] "active" [],
      invitedRow [joiningState] (sampleKey 1) (sampleKey 2) 0]⟩ :=
  have hNew : existingAdmittance pairedAgent.store "b" = none := by decide +kernel
  beginState_sample [joiningState] 0 joiningState pairedAgent rfl rfl (by decide +kernel)
    pairedAgent_pin (.cons (verifyMember_sampleOwner ..)
      (.cons (verifyMember_invitedMember [joiningState] (sampleKey 1) (sampleKey 2) 0 [] hNew) .nil))

theorem step_joiningInput : pairedAgent.step joiningEnv joiningInput = joinedAgent := by
  rw [joinedAgent, ← beginState_joining]
  exact step_sampleState (reads_head joiningState []) 0 pairedAgent

theorem run_joining :
    run (Installation.step joiningEnv) ⟨⟨.missing, .missing⟩, .stopped⟩ joining =
      ⟨pairedInstallation.save joinedAgent.store true, .running joinedAgent⟩ := by
  have hSplit : joining = joining.take 2 ++ [.handle joiningInput true] := rfl
  rw [hSplit, run_append, run_cons, run_nil]
  change Installation.step joiningEnv pairedInstallation _ = _
  rw [Installation.step, pairedInstallation_running]
  dsimp only
  rw [step_joiningInput]

theorem joinedAgent_store :
    joinedAgent.store.pinnedAdminPubKey = some (sampleKey 1) ∧
      ∃ m ∈ joinedAgent.store.members, m.isAdmin = false := by decide +kernel

theorem run_succession :
    ∃ agent ∈ (run (Installation.step joiningEnv) ⟨⟨.missing, .missing⟩, .stopped⟩
        succession).process.agent?,
      agent.store.pinnedAdminPubKey = some (sampleKey 3) ∧
        ∃ m ∈ agent.store.members, m.isAdmin = false := by
  rw [succession, run_append, run_joining]
  decide +kernel

/-- The only joins are those of the paired agent. -/
theorem succession_joins : (run (Census.step joiningEnv) Census.fresh succession).joins =
    joinsOf joiningEnv pairedAgent joiningInput := by
  have hSplit : succession =
      joining.take 2 ++ (.handle joiningInput true :: succession.drop 3) := rfl
  have hBefore : run (Census.step joiningEnv) Census.fresh (joining.take 2) =
      ⟨pairedInstallation, []⟩ := rfl
  have hAfter : ∀ c : Census, (run (Census.step joiningEnv) c (succession.drop 3)).joins =
      c.joins ++ [] ++ [] ++ [] := fun _ => rfl
  rw [hSplit, run_append, hBefore, run_cons, hAfter,
    Census.joins_handle pairedInstallation_running, List.nil_append, List.append_nil,
    List.append_nil, List.append_nil]

theorem joined_member_anchored :
    ∃ agent, (run (Census.step joiningEnv) Census.fresh joining).inst.process =
        .running agent ∧
      agent.store.pinnedAdminPubKey = some (sampleKey 1) ∧
      (∃ m ∈ agent.store.members, m.isAdmin = false) ∧
      ∀ m ∈ agent.store.members, m.isAdmin = false →
        ∃ j ∈ (run (Census.step joiningEnv) Census.fresh joining).joins,
          j.ownerPub = sampleKey 1 ∧ j.identityKey = m.identityKey ∧
            InvitedBy joiningEnv (sampleKey 1) j.attestation m.identityKey := by
  have hRunning : (run (Census.step joiningEnv) Census.fresh joining).inst.process =
      .running joinedAgent := by
    rw [Census.run_inst]
    exact congrArg Installation.process run_joining
  have hSteps : Meets (Census.step joiningEnv)
      (fun c s => c.Genuine joiningEnv s ∧ c.OwnerKept s) Census.fresh joining :=
    ⟨⟨trivial, by rintro j ⟨⟩⟩, ⟨trivial, trivial⟩, ⟨joiningInput_unforged _, trivial⟩, trivial⟩
  obtain ⟨hPin, hMember⟩ := joinedAgent_store
  exact ⟨joinedAgent, hRunning, hPin, hMember, admission_anchored joiningEnv joining hSteps joinedAgent
    (sampleKey 1) hRunning hPin⟩

/-- The member of the former owner is a member of the new one, whose key signed no
invite. -/
theorem former_member_stays :
    Meets (Census.step joiningEnv) (fun c s => c.Genuine joiningEnv s) Census.fresh
      succession ∧
    ∃ agent ∈ (run (Census.step joiningEnv) Census.fresh succession).inst.process.agent?,
      agent.store.pinnedAdminPubKey = some (sampleKey 3) ∧
      ∃ m ∈ agent.store.members, m.isAdmin = false ∧
        ∀ j ∈ (run (Census.step joiningEnv) Census.fresh succession).joins,
          j.ownerPub ≠ sampleKey 3 := by
  refine ⟨⟨trivial, trivial, joiningInput_unforged _, trivial, trivial, trivial, trivial⟩, ?_⟩
  rw [Census.run_inst, succession_joins]
  obtain ⟨agent, hMem, hPin, m, hm, hMember⟩ := run_succession
  refine ⟨agent, hMem, hPin, m, hm, hMember, fun j hj hOwner => ?_⟩
  have hPaired : pairedAgent.store.pinnedAdminPubKey = some (sampleKey 3) :=
    hOwner ▸ (joinsOf_genuine hj).1
  cases pairedAgent_pin.symm.trans hPaired

end Lifecycle
