import AtreoAgent.Acl.Anchored
import AtreoAgent.Tunnel.Cases

/-! The rows of an applied device state. Binding and derivation fill in the addresses of
the client records and leave the rest of each verified row as it is. -/
namespace Tunnel

open Codec Json Atreolink WireGuard Fallible

/-- The second record is the first with addresses. -/
def Addressed (c d : ClientRecord) : Prop :=
  d = { c with tunnelIP := d.tunnelIP, tunnelIPv6 := d.tunnelIPv6 }

/-- The second row is the first with addresses in its client records. -/
def AddressedRow (m n : MemberACLEntry) : Prop :=
  n = { m with clients := n.clients } ∧ List.Forall₂ Addressed m.clients n.clients

variable {c d : ClientRecord} {net : Subnet} {leases : List (String × String)} {a : Allocator}
  {n m : MemberACLEntry} {env : Env} {now : Time} {agent : Agent} {msg : TunnelMessage}
  {store : Acl.Store} {ownerPub : PublicKey} {dm : DSMember}

theorem Addressed.wgPublicKey (h : Addressed c d) : d.wgPublicKey = c.wgPublicKey := by
  rw [h]

theorem Addressed.trans {e : ClientRecord} (hcd : Addressed c d) (hde : Addressed d e) :
    Addressed c e := by
  rw [Addressed] at hde ⊢
  rw [hde, hcd]

theorem addressed_bindClient (h : (bindClient net leases a c).2 = .ok d) : Addressed c d := by
  unfold bindClient at h
  split at h
  · cases h
    rfl
  · split at h
    · cases h
      rfl
    · dsimp only at h
      split at h
      · cases h
        rfl
      · split at h <;> cases h
        rfl

theorem addressed_derive (srv : Server) (c : ClientRecord) :
    Addressed c (deriveClientIPv6 srv c) := by
  unfold deriveClientIPv6
  split <;> rfl

/-- The records of a row are bound one after the other. -/
theorem bindMember_eq_ok (h : (bindMember net leases a m).2 = .ok n) :
    (walk (bindClient net leases) a m.clients).2 = .ok n.clients ∧
      n = { m with clients := n.clients } := by
  unfold bindMember at h
  dsimp only at h
  cases hWalk : (walk (bindClient net leases) a m.clients).2 with
  | error e =>
      rw [hWalk] at h
      cases h
  | ok clients =>
      rw [hWalk] at h
      cases h
      exact ⟨rfl, rfl⟩

theorem addressedRow_bindMember (h : (bindMember net leases a m).2 = .ok n) : AddressedRow m n := by
  obtain ⟨hWalk, hRow⟩ := bindMember_eq_ok h
  refine ⟨hRow, walk_results (fun _ c _ d hd => ?_) hWalk⟩
  exact addressed_bindClient hd

theorem addressedRow_derive {srv : Server} (h : AddressedRow m n) :
    AddressedRow m { n with clients := n.clients.map (deriveClientIPv6 srv) } := by
  obtain ⟨hRow, hClients⟩ := h
  refine ⟨by rw [hRow], ?_⟩
  rw [List.forall₂_map_right_iff]
  exact hClients.imp fun c d hcd => hcd.trans (addressed_derive srv d)

/-- The bound rows, one by one, are the verified rows with addresses. -/
theorem Checked.addressedRows (c : Checked env now agent msg) {bound : List MemberACLEntry}
    (h : c.binding.2 = .ok bound) :
    List.Forall₂ AddressedRow c.entries (deriveIPv6 env.server bound) := by
  have hBound : List.Forall₂ AddressedRow c.entries bound := by
    refine walk_results (fun _ m _ n hn => ?_) h
    exact addressedRow_bindMember hn
  rw [deriveIPv6, List.forall₂_map_right_iff]
  exact hBound.imp fun m n h => addressedRow_derive h

theorem Accepted.addressedRows (a : Accepted env now agent msg) :
    List.Forall₂ AddressedRow a.entries a.members :=
  Checked.addressedRows a.toChecked a.binds

theorem Accepted.store_members (a : Accepted env now agent msg) :
    a.store.members = a.members ∧ a.store.apps = a.verified.apps := by
  obtain ⟨_, hStore, _⟩ := Acl.Store.reconcile_eq_ok a.reconciles
  rw [hStore]
  exact ⟨rfl, rfl⟩

/-- What the verification of a member goes through. -/
theorem verifyMember_eq_ok {vApps : List App} {v : VerifiedMember}
    (h : verifyMember env store ownerPub now vApps dm = .ok v) :
    ∃ admission identity status permitted clients,
      verifyAdmission env store ownerPub now dm = .ok admission ∧
      decodeEd25519 dm.identityKey = some identity ∧
      verifyStatus env store ownerPub dm = .ok status ∧
      verifyPermissions env store ownerPub dm = .ok permitted ∧
      each (fun c => verifyClient env store identity dm.memberID c.1 c.2) (registeredClients dm) =
        .ok clients ∧
      v.entry = { initialEntry dm with
        admittance := admission.admittance
        status := status
        allowedApps := allowedApps vApps dm admission.initialAppIDs permitted
        clients := clients.map (·.record) } := by
  obtain ⟨admission, hAdmission, h⟩ := bind_eq_ok.mp h
  obtain ⟨identity, hIdentity, h⟩ := bind_eq_ok.mp h
  obtain ⟨status, hStatus, h⟩ := bind_eq_ok.mp h
  obtain ⟨permitted, hPermitted, h⟩ := bind_eq_ok.mp h
  obtain ⟨clients, hClients, h⟩ := bind_eq_ok.mp h
  cases h
  exact ⟨admission, identity, status, permitted, clients, hAdmission, require_eq_ok.mp hIdentity,
    hStatus, hPermitted, hClients, rfl⟩

/-- The three ways a member that is not an admin is admitted. -/
theorem verifyAdmission_eq_ok {admission : Admission}
    (h : verifyAdmission env store ownerPub now dm = .ok admission) (hMember : dm.isAdmin = false) :
    ∃ cert, admission.admittance = some cert ∧
      admission.initialAppIDs = cert.initialAllowedAppIDs.getD [] ∧
      (dm.admittance = some cert ∧ verifyAdmittanceCertificate env cert dm.memberID dm.identityKey
          env.agentKey.base64 = .ok () ∨
        existingAdmittance store dm.memberID = some cert ∧ verifyAdmittanceCertificate env cert
          dm.memberID dm.identityKey env.agentKey.base64 = .ok () ∨
        dm.admittance = none ∧ existingAdmittance store dm.memberID = none ∧
          admitMember env ownerPub now dm = .ok cert) := by
  unfold verifyAdmission at h
  rw [if_neg (by simp [hMember])] at h
  split at h
  next cert hInbound =>
    obtain ⟨_, hCert, h⟩ := bind_eq_ok.mp h
    cases h
    exact ⟨cert, rfl, rfl, Or.inl ⟨hInbound, mapError_eq_ok.mp hCert⟩⟩
  next hNoInbound =>
    split at h
    next cert hExisting =>
      obtain ⟨_, hCert, h⟩ := bind_eq_ok.mp h
      cases h
      exact ⟨cert, rfl, rfl, Or.inr (Or.inl ⟨hExisting, mapError_eq_ok.mp hCert⟩)⟩
    next hNoExisting =>
      obtain ⟨cert, hAdmit, h⟩ := bind_eq_ok.mp h
      cases h
      exact ⟨cert, rfl, rfl, Or.inr (Or.inr ⟨hNoInbound, hNoExisting, hAdmit⟩)⟩

theorem admitMember_eq_ok {cert : AdmittanceCertificate}
    (h : admitMember env ownerPub now dm = .ok cert) :
    ∃ att, dm.joinAttestation = some att ∧ InvitedBy env ownerPub att dm.identityKey ∧
      verifyAdmittanceCertificate env cert dm.memberID dm.identityKey env.agentKey.base64 = .ok () := by
  obtain ⟨att, hAtt, h⟩ := bind_eq_ok.mp h
  obtain ⟨inv, hVerify, h⟩ := bind_eq_ok.mp h
  obtain ⟨inviteBytes, _, hMint⟩ := bind_eq_ok.mp h
  exact ⟨att, require_eq_ok.mp hAtt,
    invitedBy_of_verifyJoinAttestation rfl (mapError_eq_ok.mp hVerify),
    (verifyAdmittanceCertificate_mint (mapError_eq_ok.mp hMint)).1⟩

theorem verifyStatus_eq_ok {status : String} (h : verifyStatus env store ownerPub dm = .ok status) :
    dm.statusEnvelope = none ∧ status = "active" ∨
    ∃ e sp, dm.statusEnvelope = some e ∧ PayloadType.memberStatus.unmarshal e.payload = some sp ∧
      sp.memberID = dm.memberID ∧ (sp.status = "active" ∨ sp.status = "suspended") ∧
      verifyAuthorization env store (e.asMessage "member:status") (.attested ownerPub)
        sp.toCommandEnvelopeFields (statusIntent env sp) = .ok () ∧ sp.status = status := by
  unfold verifyStatus at h
  cases hEnvelope : dm.statusEnvelope with
  | none =>
      rw [hEnvelope] at h
      cases h
      exact Or.inl ⟨rfl, rfl⟩
  | some e =>
      rw [hEnvelope] at h
      obtain ⟨sp, hPayload, h⟩ := bind_eq_ok.mp h
      obtain ⟨_, hAddress, h⟩ := bind_eq_ok.mp h
      obtain ⟨_, hValid, h⟩ := bind_eq_ok.mp h
      obtain ⟨_, hAuth, h⟩ := bind_eq_ok.mp h
      exact Or.inr ⟨e, sp, rfl, require_eq_ok.mp hPayload,
        of_decide_eq_true (ensure_eq_ok.mp hAddress), of_decide_eq_true (ensure_eq_ok.mp hValid),
        mapError_eq_ok.mp hAuth, Except.ok.inj h⟩

theorem verifyPermissions_eq_ok {permitted : Option (List String)}
    (h : verifyPermissions env store ownerPub dm = .ok permitted) :
    dm.permissionsEnvelope = none ∧ permitted = none ∨
    ∃ e pp, dm.permissionsEnvelope = some e ∧
      PayloadType.memberPermissions.unmarshal e.payload = some pp ∧ pp.memberID = dm.memberID ∧
      verifyAuthorization env store (e.asMessage "member:permissions") (.attested ownerPub)
        pp.toCommandEnvelopeFields (permissionsIntent env pp) = .ok () ∧
      permitted = some (pp.allowedAppIDs.getD []) := by
  unfold verifyPermissions at h
  cases hEnvelope : dm.permissionsEnvelope with
  | none =>
      rw [hEnvelope] at h
      cases h
      exact Or.inl ⟨rfl, rfl⟩
  | some e =>
      rw [hEnvelope] at h
      obtain ⟨pp, hPayload, h⟩ := bind_eq_ok.mp h
      obtain ⟨_, hAddress, h⟩ := bind_eq_ok.mp h
      obtain ⟨_, hAuth, h⟩ := bind_eq_ok.mp h
      exact Or.inr ⟨e, pp, rfl, require_eq_ok.mp hPayload,
        of_decide_eq_true (ensure_eq_ok.mp hAddress), mapError_eq_ok.mp hAuth,
        (Except.ok.inj h).symm⟩

theorem verifyClient_record {memberPub : PublicKey} {memberID : String} {dc : DSClient}
    {envelope : DSEnvelope} {vc : VerifiedClient}
    (h : verifyClient env store memberPub memberID dc envelope = .ok vc) :
    dc.wgPublicKey = vc.record.wgPublicKey ∧ vc.record.tunnelIP = "" ∧ vc.record.tunnelIPv6 = "" := by
  obtain ⟨_, _, h⟩ := bind_eq_ok.mp h
  obtain ⟨_, _, h⟩ := bind_eq_ok.mp h
  obtain ⟨_, _, h⟩ := bind_eq_ok.mp h
  cases h
  exact ⟨rfl, rfl, rfl⟩

/-- A verified row has the standing of its member and one record, still without an
address, for each registered client. -/
theorem entry_of_verifyMember {vApps : List App} {v : VerifiedMember}
    (h : verifyMember env store ownerPub now vApps dm = .ok v) :
    v.entry.memberID = dm.memberID ∧ v.entry.role = dm.role ∧
      v.entry.identityKey = dm.identityKey ∧
      v.entry.clients.map (·.wgPublicKey) = (registeredClients dm).map (·.1.wgPublicKey) ∧
      ∀ c ∈ v.entry.clients, c.tunnelIP = "" ∧ c.tunnelIPv6 = "" := by
  obtain ⟨_, _, _, _, clients, _, _, _, _, hClients, hEntry⟩ := verifyMember_eq_ok h
  rw [hEntry]
  refine ⟨rfl, rfl, rfl, ?_, ?_⟩
  · rw [List.map_map]
    exact (map_eq_of_forall₂ (each_eq_ok.mp hClients)
      fun c vc hVerify => (verifyClient_record hVerify).1).symm
  · intro c hc
    obtain ⟨vc, hvc, rfl⟩ := List.mem_map.mp hc
    obtain ⟨p, _, hVerify⟩ := exists_of_mem_each hClients hvc
    exact (verifyClient_record hVerify).2

theorem Checked.verifiedMembers (c : Checked env now agent msg) :
    List.Forall₂ (fun dm v => verifyMember env agent.store c.ownerPub now c.verified.apps dm = .ok v)
      c.st.members c.verified.members := by
  obtain ⟨vApps, _, hRest⟩ := bind_eq_ok.mp c.verifies
  obtain ⟨vMembers, hEach, hState⟩ := bind_eq_ok.mp hRest
  rw [← Except.ok.inj hState]
  exact each_eq_ok.mp hEach

/-- The WG keys of the registered clients of a member. -/
def memberKeys (dm : DSMember) : List String := (registeredClients dm).map (·.1.wgPublicKey)

/-- The WG keys of all registered clients of a device state. -/
def registeredKeys (st : DeviceState) : List String := st.members.flatMap memberKeys

theorem Checked.entries_keys (c : Checked env now agent msg) :
    c.entries.map (fun m => m.clients.map (·.wgPublicKey)) = c.st.members.map memberKeys := by
  rw [Checked.entries, List.map_map]
  exact (map_eq_of_forall₂ c.verifiedMembers
    fun dm v h => (entry_of_verifyMember h).2.2.2.1.symm).symm

theorem Checked.clientKeys_entries (c : Checked env now agent msg) :
    Acl.clientKeys c.entries = registeredKeys c.st := by
  rw [Acl.clientKeys, registeredKeys, List.flatMap_def, List.flatMap_def, c.entries_keys]

/-- Row by row, the keys of the access list are those of the registered clients. -/
theorem Accepted.members_keys (a : Accepted env now agent msg) :
    a.members.map (fun m => m.clients.map (·.wgPublicKey)) = a.st.members.map memberKeys := by
  rw [← a.entries_keys]
  refine (map_eq_of_forall₂ a.addressedRows fun m n h => ?_).symm
  exact map_eq_of_forall₂ h.2 fun c d hcd => hcd.wgPublicKey.symm

theorem Accepted.clientKeys_members (a : Accepted env now agent msg) :
    Acl.clientKeys a.members = registeredKeys a.st := by
  rw [Acl.clientKeys, registeredKeys, List.flatMap_def, List.flatMap_def, a.members_keys]

/-- The rows that are bound have no addresses yet. -/
theorem Checked.entries_blank (c : Checked env now agent msg) :
    ∀ m ∈ c.entries, ∀ d ∈ m.clients, d.tunnelIP = "" ∧ d.tunnelIPv6 = "" := by
  intro m hm
  obtain ⟨v, hv, rfl⟩ := List.mem_map.mp hm
  obtain ⟨dm, _, hVerify⟩ := exists_left c.verifiedMembers hv
  exact (entry_of_verifyMember hVerify).2.2.2.2

/-- A new row belongs to a member of the device state that was verified. -/
theorem Accepted.exists_verified (a : Accepted env now agent msg) (hn : n ∈ a.members) :
    ∃ dm ∈ a.st.members, ∃ v, AddressedRow v.entry n ∧
      verifyMember env agent.store a.ownerPub now a.verified.apps dm = .ok v := by
  obtain ⟨m, hm, hRow⟩ := exists_left a.addressedRows hn
  obtain ⟨v, hv, rfl⟩ := List.mem_map.mp hm
  obtain ⟨dm, hdm, hOk⟩ := exists_left a.verifiedMembers hv
  exact ⟨dm, hdm, v, hRow, hOk⟩

theorem addClient_pinned {s t : Acl.Store} {memberID : String} {rec : ClientRecord} {known : Bool}
    (h : s.addClient memberID rec = (t, known)) : t.pinnedAdminPubKey = s.pinnedAdminPubKey := by
  obtain ⟨hPin, _⟩ := Acl.Store.addClient_spec s memberID rec
  rw [h] at hPin
  exact hPin

/-- Handling messages does not move the pin. -/
theorem step_pinned (env : Env) (agent : Agent) (input : Input) :
    (agent.step env input).store.pinnedAdminPubKey = agent.store.pinnedAdminPubKey := by
  have hCase := step_effect env agent input
  generalize agent.step env input = next at hCase ⊢
  cases hCase with
  | quiet nonces live => rfl
  | unbound msg hEvent c => rfl
  | applied msg hEvent a =>
      rw [a.result_store]
      obtain ⟨_, hStore, _⟩ := Acl.Store.reconcile_eq_ok a.reconciles
      rw [hStore]
      rfl
  | provisioned msg hEvent nonces req hPasses =>
      have hProvision := addClientPeer_cases env input.exec { agent with nonces := nonces } req
      generalize (Agent.addClientPeer env input.exec { agent with nonces := nonces } req).1 = after
        at hProvision ⊢
      cases hProvision with
      | noAddress hNone => rfl
      | unknownMember allocator ip store hAllocate hAdd => exact addClient_pinned hAdd
      | peerRefused allocator ip store e hAllocate hAdd hPeer =>
          exact (Acl.Store.removeClient_spec store _ _).1.trans (addClient_pinned hAdd)
      | installed allocator ip store peers hAllocate hAdd hPeer => exact addClient_pinned hAdd
  | dropped live hEvent hTrip => rfl

end Tunnel
