import AtreoAgent.Tunnel.Applied
import AtreoAgent.Tunnel.Sample

/-! Restoring addresses from leases. The binding loop adopts the address of a verified lease
when it reaches the client, so the lease counts only if no client before it was allocated that
address. Which of them are is a matter of counting the hosts they can take before the loop
starts. -/
namespace Tunnel

open Codec Json Atreolink WireGuard Fallible

/-- The key and address of the lease of a client, if it verifies. -/
def verifiedLease (env : Env) (dc : DSClient) : Option (String × String) :=
  dc.ipLease.bind fun lease =>
    match verifyTunnelIPLease env lease env.deviceID dc.wgPublicKey with
    | .ok () => some (dc.wgPublicKey, lease.tunnelIP)
    | .error _ => none

/-- The verified leases of a device state, in the order of its clients. -/
def verifiedLeases (env : Env) (st : DeviceState) : List (String × String) :=
  st.members.flatMap fun dm => (registeredClients dm).filterMap fun p => verifiedLease env p.1

variable {env : Env} {clients : List (String × Option String)}

theorem verifyClient_lease {store : Acl.Store} {memberPub : PublicKey} {memberID : String}
    {dc : DSClient} {envelope : DSEnvelope} {vc : VerifiedClient}
    (h : verifyClient env store memberPub memberID dc envelope = .ok vc) :
    vc.lease = verifiedLease env dc := by
  obtain ⟨_, _, h⟩ := bind_eq_ok.mp h
  obtain ⟨_, _, h⟩ := bind_eq_ok.mp h
  obtain ⟨_, _, h⟩ := bind_eq_ok.mp h
  cases h
  rfl

theorem leases_of_verifyMember {store : Acl.Store} {ownerPub : PublicKey} {now : Time}
    {vApps : List App} {dm : DSMember} {v : VerifiedMember}
    (h : verifyMember env store ownerPub now vApps dm = .ok v) :
    v.leases = (registeredClients dm).filterMap fun p => verifiedLease env p.1 := by
  obtain ⟨_, _, h⟩ := bind_eq_ok.mp h
  obtain ⟨_, _, h⟩ := bind_eq_ok.mp h
  obtain ⟨_, _, h⟩ := bind_eq_ok.mp h
  obtain ⟨_, _, h⟩ := bind_eq_ok.mp h
  obtain ⟨clients, hClients, h⟩ := bind_eq_ok.mp h
  cases h
  have hLeases := map_eq_of_forall₂ (each_eq_ok.mp hClients)
    (f := fun p => verifiedLease env p.1) (g := (·.lease)) fun _ _ hc => (verifyClient_lease hc).symm
  have hIDs := congrArg (List.filterMap id) hLeases
  rw [List.filterMap_map, List.filterMap_map] at hIDs
  exact hIDs.symm

theorem Checked.leases_eq {now : Time} {agent : Agent} {msg : TunnelMessage}
    (c : Checked env now agent msg) : c.leases = verifiedLeases env c.st := by
  have hLeases := map_eq_of_forall₂ c.verifiedMembers
    (f := fun dm => (registeredClients dm).filterMap fun p => verifiedLease env p.1)
    (g := (·.leases)) fun _ _ h => (leases_of_verifyMember h).symm
  rw [Checked.leases, verifiedLeases, List.flatMap_def, List.flatMap_def, hLeases]

/-- The address is marked as used, or some key holds it. -/
def InUse (a : Allocator) (ip : String) : Prop :=
  ip ∈ a.usedIPs ∨ ∃ key, a.allocated.lookup key = some ip

/-- The address is used just if some key holds it. -/
def Tracked (ip : String) (a : Allocator) : Prop :=
  ip ∈ a.usedIPs ↔ ∃ key, a.allocated.lookup key = some ip

section Loop

variable {net : Subnet} {leases : List (String × String)} {a : Allocator} {key ip : String}

theorem tracked_of_not_inUse (h : ¬ InUse a ip) : Tracked ip a :=
  iff_of_false (fun hUsed => h (Or.inl hUsed)) fun hHeld => h (Or.inr hHeld)

theorem inUse_bind (hNone : a.allocated.lookup key = none) (taken : String) :
    InUse (a.bind key taken) ip ↔ ip = taken ∨ InUse a ip := by
  rw [InUse, InUse, Allocator.mem_usedIPs_bind, Allocator.held_bind hNone]
  tauto

theorem tracked_walk (h : Tracked ip a) (cs : List ClientRecord) :
    Tracked ip (walk (bindClient net leases) a cs).1 := by
  refine walk_bind_preserves (fun b hb c _ taken _ hNone _ => ?_) h
  rw [Tracked, Allocator.mem_usedIPs_bind, Allocator.held_bind hNone]
  exact or_congr_right hb

/-- The loop binds no key that is not listed. -/
theorem lookup_walk_of_notMem {cs : List ClientRecord} (h : key ∉ cs.map (·.wgPublicKey)) :
    (walk (bindClient net leases) a cs).1.allocated.lookup key = a.allocated.lookup key := by
  refine walk_bind_preserves
    (P := fun b : Allocator => b.allocated.lookup key = a.allocated.lookup key)
    (fun b hb c hc ip _ _ _ => ?_) rfl
  have hNe : key ≠ c.wgPublicKey := fun hSame => h (hSame ▸ List.mem_map_of_mem hc)
  rw [Allocator.lookup_bind, if_neg hNe, hb]

variable {c : ClientRecord} {taken : String} {keys : List String}

/-- The key of a lease whose address is free takes that address. -/
theorem bindClient_of_lease (hKey : c.wgPublicKey ≠ "")
    (hNone : a.allocated.lookup c.wgPublicKey = none) (hLease : leaseIP leases c.wgPublicKey = ip)
    (hSubnet : net.inSubnet ip = true) (hFree : ¬ InUse a ip) :
    bindClient net leases a c = (a.bind c.wgPublicKey ip, .ok { c with tunnelIP := ip }) := by
  have hSome : ip ≠ "" := net.ne_empty_of_mem_hosts (net.mem_hosts_of_inSubnet hSubnet)
  have hAdopt : a.tryAdopt net c.wgPublicKey ip = some (a.bind c.wgPublicKey ip) := by
    rw [Allocator.tryAdopt, Pool.tryAdopt, hNone, if_neg (by simp [hKey, hSubnet])]
    refine if_neg fun hUsed => hFree ?_
    rcases hUsed with ⟨pk, _, hPk, _⟩ | hUsed
    · exact Or.inr ⟨pk, hPk⟩
    · exact Or.inl hUsed
  rw [bindClient, if_neg hKey, if_neg (by simp [Allocator.lookup, hNone])]
  simp only [hLease, if_neg hSome, hAdopt]

theorem used_walk (hUsed : ip ∈ a.usedIPs) (cs : List ClientRecord) :
    ip ∈ (walk (bindClient net leases) a cs).1.usedIPs :=
  walk_bind_preserves (P := fun b : Allocator => ip ∈ b.usedIPs)
    (fun _ hb _ _ _ _ _ _ => Finset.mem_insert_of_mem hb) hUsed

/-- An address that is used gets no further holder. -/
theorem holder_walk (hUsed : ip ∈ a.usedIPs) (cs : List ClientRecord) (other : String)
    (h : (walk (bindClient net leases) a cs).1.allocated.lookup other = some ip) :
    a.allocated.lookup other = some ip := by
  refine (walk_bind_preserves (P := fun b : Allocator => ip ∈ b.usedIPs ∧
    (b.allocated.lookup other = some ip → a.allocated.lookup other = some ip))
    (fun b hb c _ taken _ _ hFree => ?_) ⟨hUsed, id⟩).2 h
  refine ⟨Finset.mem_insert_of_mem hb.1, fun hOther => ?_⟩
  rw [Allocator.lookup_bind] at hOther
  split at hOther
  · cases hOther
    exact absurd hb.1 (Pool.mem_free.mp hFree).2
  · exact hb.2 hOther

/-- The key of a lease gets its address just if the address is still free when the loop reaches
the client. -/
theorem lookup_walk_lease_iff {before after ds : List ClientRecord}
    (hWalk : (walk (bindClient net leases) a (before ++ c :: after)).2 = .ok ds)
    (hBefore : c.wgPublicKey ∉ before.map (·.wgPublicKey)) (hKey : c.wgPublicKey ≠ "")
    (hNone : a.allocated.lookup c.wgPublicKey = none) (hLease : leaseIP leases c.wgPublicKey = ip)
    (hSubnet : net.inSubnet ip = true) (hFree : ¬ InUse a ip) :
    (walk (bindClient net leases) a (before ++ c :: after)).1.allocated.lookup c.wgPublicKey =
        some ip ↔
      ip ∉ (walk (bindClient net leases) a before).1.usedIPs := by
  rw [walk_append_of_ok hWalk]
  have hTracked : Tracked ip (walk (bindClient net leases) a before).1 :=
    tracked_walk (tracked_of_not_inUse hFree) before
  have hFresh : (walk (bindClient net leases) a before).1.allocated.lookup c.wgPublicKey = none := by
    rw [lookup_walk_of_notMem hBefore, hNone]
  generalize (walk (bindClient net leases) a before).1 = b at hTracked hFresh
  by_cases hUsed : ip ∈ b.usedIPs
  · refine iff_of_false (fun hHeld => ?_) (not_not_intro hUsed)
    cases hFresh.symm.trans (holder_walk hUsed _ _ hHeld)
  · have hClear : ¬ InUse b ip := not_or.mpr ⟨hUsed, fun hHeld => hUsed (hTracked.mpr hHeld)⟩
    have hBind := bindClient_of_lease hKey hFresh hLease hSubnet hClear
    rw [(walk_cons_ok hBind after).1]
    refine iff_of_true (keeps_walk net leases _ after _ _ ?_) hUsed
    rw [Allocator.lookup_bind, if_pos rfl]

/-- The address the loop gives to a key without one: that of its lease if nobody has it, else
the first host that is not used. -/
inductive Takes (net : Subnet) (leases : List (String × String)) (a : Allocator) (key : String) :
    String → Prop where
  | adopts (hSubnet : net.inSubnet (leaseIP leases key) = true)
      (hFree : ¬ InUse a (leaseIP leases key)) : Takes net leases a key (leaseIP leases key)
  | allocates (ip : String)
      (hLease : net.inSubnet (leaseIP leases key) = true → InUse a (leaseIP leases key))
      (hFirst : net.hosts.find? (· ∉ a.usedIPs) = some ip) : Takes net leases a key ip

theorem bindClient_of_takes (hKey : c.wgPublicKey ≠ "")
    (hNone : a.allocated.lookup c.wgPublicKey = none) (h : Takes net leases a c.wgPublicKey ip) :
    bindClient net leases a c = (a.bind c.wgPublicKey ip, .ok { c with tunnelIP := ip }) := by
  cases h with
  | adopts hSubnet hFree => exact bindClient_of_lease hKey hNone rfl hSubnet hFree
  | allocates ip hLease hFirst =>
      have hAllocate : a.allocate net c.wgPublicKey = some (a.bind c.wgPublicKey ip, ip) := by
        rw [Allocator.allocate, Pool.allocate, hNone]
        simp only [hFirst, Option.map_some]
      have hAdopt : a.tryAdopt net c.wgPublicKey (leaseIP leases c.wgPublicKey) = none := by
        rw [Allocator.tryAdopt, Pool.tryAdopt, hNone]
        refine ite_eq_left_iff.mpr fun hPasses => if_pos ?_
        have hSubnet : net.inSubnet (leaseIP leases c.wgPublicKey) = true := by
          simpa [hKey] using hPasses
        rcases hLease hSubnet with hUsed | ⟨pk, hPk⟩
        · exact Or.inr hUsed
        · refine Or.inl ⟨pk, Finmap.mem_keys.mpr (Finmap.mem_of_lookup_eq_some hPk), hPk, ?_⟩
          rintro rfl
          cases hNone.symm.trans hPk
      rw [bindClient, if_neg hKey, if_neg (by simp [Allocator.lookup, hNone])]
      simp only [hAdopt, ite_self, hAllocate]

/-- While one host is free the loop has an address for every key. -/
theorem exists_takes (hSubnet : net.inSubnet ip = true) (hFree : ip ∉ a.usedIPs)
    (leases : List (String × String)) (key : String) : ∃ taken, Takes net leases a key taken := by
  by_cases hLease : net.inSubnet (leaseIP leases key) = true ∧ ¬ InUse a (leaseIP leases key)
  · exact ⟨_, .adopts hLease.1 hLease.2⟩
  · obtain ⟨taken, hFirst⟩ : ∃ taken, net.hosts.find? (· ∉ a.usedIPs) = some taken := by
      rw [← Option.isSome_iff_exists, List.find?_isSome]
      exact ⟨ip, net.mem_hosts_of_inSubnet hSubnet, decide_eq_true hFree⟩
    exact ⟨taken, .allocates taken (fun h => by_contra fun hOpen => hLease ⟨h, hOpen⟩) hFirst⟩

/-- The hosts `allocate` tries before the address. -/
def hostsBelow (net : Subnet) (ip : String) : List String := net.hosts.takeWhile (· ≠ ip)

/-- The first host that is not used is the address, with every host below it used, or it is
below the address. -/
theorem first_free_cases (hHost : ip ∈ net.hosts) (hFree : ip ∉ a.usedIPs)
    (hFirst : net.hosts.find? (· ∉ a.usedIPs) = some taken) :
    (taken = ip ∧ ∀ h ∈ hostsBelow net ip, h ∈ a.usedIPs) ∨ taken ∈ hostsBelow net ip := by
  obtain ⟨below, above, hHosts, hNotMem⟩ := List.eq_append_cons_of_mem hHost
  have hBelow : hostsBelow net ip = below := by
    rw [hostsBelow, hHosts, List.takeWhile_append_of_pos]
    · simp
    · exact fun h hh => decide_eq_true fun hSame => hNotMem (hSame ▸ hh)
  have hHit : (ip :: above).find? (· ∉ a.usedIPs) = some ip :=
    List.find?_cons_of_pos (decide_eq_true hFree)
  rw [hHosts, List.find?_append, hHit] at hFirst
  rw [hBelow]
  cases hSearch : below.find? (· ∉ a.usedIPs) with
  | none =>
      rw [hSearch] at hFirst
      refine Or.inl ⟨(Option.some.inj hFirst).symm, fun h hh => ?_⟩
      simpa using List.find?_eq_none.mp hSearch h hh
  | some other =>
      rw [hSearch] at hFirst
      cases hFirst
      exact Or.inr (List.mem_of_find?_eq_some hSearch)

instance (a : Allocator) (ip : String) : Decidable (InUse a ip) :=
  decidable_of_iff (ip ∈ a.usedIPs ∨ ∃ key ∈ a.allocated.keys, a.allocated.lookup key = some ip) <| by
    refine or_congr_right (exists_congr fun key => and_iff_right_of_imp fun h => ?_)
    exact Finmap.mem_keys.mpr (Finmap.mem_of_lookup_eq_some h)

/-- The hosts that the fresh keys of a list can take without reaching the address: the free
ones below it, and the others that one of these keys has a lease for and nobody holds. -/
def spareHosts (net : Subnet) (leases : List (String × String)) (a : Allocator)
    (keys : List String) (ip : String) : Finset String :=
  (a.free net).filter fun h => h ∈ hostsBelow net ip ∨
    (h ≠ ip ∧ ¬ InUse a h ∧ ∃ k ∈ freshKeys a keys, leaseIP leases k = h)

/-- The fresh keys of a list leave the address free: none has a lease for it, and there are
no more of them than spare hosts. -/
@[mk_iff]
structure Spared (net : Subnet) (leases : List (String × String)) (a : Allocator)
    (keys : List String) (ip : String) : Prop where
  unleased : ∀ k ∈ freshKeys a keys, leaseIP leases k ≠ ip
  enough : (freshKeys a keys).card ≤ (spareHosts net leases a keys ip).card

theorem spared_cons_of_not (keys : List String)
    (h : ¬ (key ≠ "" ∧ a.allocated.lookup key = none)) :
    Spared net leases a (key :: keys) ip ↔ Spared net leases a keys ip := by
  simp only [spared_iff, spareHosts, freshKeys_cons_of_not keys h]

/-- A key that takes another address takes a spare host. -/
theorem spareHosts_bind (keys : List String) (hKey : key ≠ "")
    (hNone : a.allocated.lookup key = none)
    (hSubnet : net.inSubnet ip = true) (hFree : ¬ InUse a ip)
    (hTakes : Takes net leases a key taken) (hNe : taken ≠ ip) :
    spareHosts net leases a (key :: keys) ip =
        insert taken (spareHosts net leases (a.bind key taken) keys ip) ∧
      taken ∉ spareHosts net leases (a.bind key taken) keys ip := by
  obtain ⟨hInsert, -⟩ := freshKeys_cons_bind keys taken hKey hNone
  have hGone : taken ∉ (a.bind key taken).free net := fun h =>
    (Pool.mem_free.mp h).2 (Finset.mem_insert_self _ _)
  have hOpen : taken ∈ spareHosts net leases a (key :: keys) ip := by
    refine Finset.mem_filter.mpr ?_
    cases hTakes with
    | adopts hLeased hUnheld =>
        refine ⟨Pool.mem_free.mpr ⟨net.mem_hosts_of_inSubnet hLeased, fun h => hUnheld (.inl h)⟩,
          Or.inr ⟨hNe, hUnheld, key, ?_, rfl⟩⟩
        exact mem_freshKeys.mpr ⟨List.mem_cons_self, hKey, hNone⟩
    | allocates _ hLease hFirst =>
        refine ⟨Pool.mem_free.mpr ⟨List.mem_of_find?_eq_some hFirst, ?_⟩, Or.inl ?_⟩
        · simpa using List.find?_some hFirst
        · exact (first_free_cases (net.mem_hosts_of_inSubnet hSubnet) (fun h => hFree (.inl h))
            hFirst).resolve_left fun h => hNe h.1
  refine ⟨Finset.ext fun h => ?_, fun h => hGone (Finset.mem_filter.mp h).1⟩
  by_cases hSame : h = taken
  · subst hSame
    exact iff_of_true hOpen (Finset.mem_insert_self _ _)
  · -- A lease of the key for this host would have been adopted.
    have hOther : ¬ InUse a h → h ∈ net.hosts → leaseIP leases key ≠ h := by
      rintro hUnheld hHost rfl
      cases hTakes with
      | adopts => exact hSame rfl
      | allocates _ hLease _ => exact hUnheld (hLease (net.inSubnet_of_mem_hosts hHost))
    rw [Finset.mem_insert, or_iff_right hSame, spareHosts, spareHosts, Finset.mem_filter,
      Finset.mem_filter, Allocator.free_bind, Finset.mem_erase, and_iff_right hSame,
      inUse_bind hNone, or_iff_right hSame, hInsert]
    refine and_congr_right fun hHost => or_congr_right (and_congr_right fun _ =>
      and_congr_right fun hUnheld => ?_)
    rw [Finset.exists_mem_insert, or_iff_right (hOther hUnheld (Pool.mem_free.mp hHost).1)]

theorem spared_cons_bind (hKey : key ≠ "") (hNone : a.allocated.lookup key = none)
    (hSubnet : net.inSubnet ip = true) (hFree : ¬ InUse a ip)
    (hTakes : Takes net leases a key taken) (hNe : taken ≠ ip) :
    Spared net leases a (key :: keys) ip ↔ Spared net leases (a.bind key taken) keys ip := by
  obtain ⟨hInsert, hNew⟩ := freshKeys_cons_bind keys taken hKey hNone
  obtain ⟨hSpare, hGone⟩ := spareHosts_bind keys hKey hNone hSubnet hFree hTakes hNe
  have hLease : leaseIP leases key ≠ ip := by
    rintro rfl
    cases hTakes with
    | adopts => exact hNe rfl
    | allocates _ hLease _ => exact hFree (hLease hSubnet)
  rw [spared_iff, spared_iff, hInsert, hSpare, Finset.card_insert_of_notMem hNew,
    Finset.card_insert_of_notMem hGone, Finset.forall_mem_insert, and_iff_right hLease,
    Nat.add_le_add_iff_right]

/-- A key takes the address by its lease, or because every host below is used: then the spare
hosts are leased to the keys after it. -/
theorem not_spared_of_takes (hKey : key ≠ "") (hNone : a.allocated.lookup key = none)
    (hSubnet : net.inSubnet ip = true) (hFree : ¬ InUse a ip) (hTakes : Takes net leases a key ip) :
    ¬ Spared net leases a (key :: keys) ip := by
  rintro ⟨hUnleased, hEnough⟩
  obtain ⟨hInsert, hNew⟩ := freshKeys_cons_bind keys ip hKey hNone
  generalize hTaken : ip = taken at hTakes
  cases hTakes with
  | adopts => exact hUnleased key (mem_freshKeys.mpr ⟨List.mem_cons_self, hKey, hNone⟩) hTaken.symm
  | allocates _ hLease hFirst =>
      subst hTaken
      have hBelow : ∀ h ∈ hostsBelow net ip, h ∈ a.usedIPs := by
        rcases first_free_cases (net.mem_hosts_of_inSubnet hSubnet) (fun h => hFree (.inl h)) hFirst
          with h | h
        · exact h.2
        · have hNe := List.mem_takeWhile_imp (p := (· ≠ ip)) h
          exact absurd rfl (of_decide_eq_true hNe)
      have hSpare : spareHosts net leases a (key :: keys) ip ⊆
          (freshKeys (a.bind key ip) keys).image (leaseIP leases) := by
        intro h hh
        obtain ⟨hHost, hReason⟩ := Finset.mem_filter.mp hh
        obtain ⟨hHost, hUnused⟩ := Pool.mem_free.mp hHost
        rcases hReason with hLow | ⟨_, hUnheld, k, hk, rfl⟩
        · exact absurd (hBelow h hLow) hUnused
        · rw [hInsert, Finset.mem_insert] at hk
          rcases hk with rfl | hk
          · exact absurd (hLease (net.inSubnet_of_mem_hosts hHost)) hUnheld
          · exact Finset.mem_image_of_mem _ hk
      have hCount := (Finset.card_le_card hSpare).trans Finset.card_image_le
      rw [hInsert, Finset.card_insert_of_notMem hNew] at hEnough
      omega

/-- The loop leaves a free address free just if the keys before it do, counted in the
allocator the loop starts with. -/
theorem notMem_used_walk_iff (hSubnet : net.inSubnet ip = true) (hFree : ¬ InUse a ip)
    (cs : List ClientRecord) :
    ip ∉ (walk (bindClient net leases) a cs).1.usedIPs ↔
      Spared net leases a (cs.map (·.wgPublicKey)) ip := by
  induction cs generalizing a with
  | nil =>
      refine iff_of_true (fun h => hFree (.inl h)) ⟨?_, ?_⟩ <;> simp [freshKeys]
  | cons c cs ih =>
      rw [List.map_cons]
      by_cases hFresh : c.wgPublicKey ≠ "" ∧ a.allocated.lookup c.wgPublicKey = none
      · obtain ⟨hKey, hNone⟩ := hFresh
        obtain ⟨taken, hTakes⟩ := exists_takes hSubnet (fun h => hFree (.inl h)) leases c.wgPublicKey
        rw [(walk_cons_ok (bindClient_of_takes hKey hNone hTakes) cs).1]
        by_cases hSame : taken = ip
        · subst hSame
          exact iff_of_false (not_not_intro (used_walk (Finset.mem_insert_self _ _) cs))
            (not_spared_of_takes hKey hNone hSubnet hFree hTakes)
        · have hStill : ¬ InUse (a.bind c.wgPublicKey taken) ip := by
            rw [inUse_bind hNone]
            exact not_or.mpr ⟨Ne.symm hSame, hFree⟩
          rw [ih hStill, spared_cons_bind hKey hNone hSubnet hFree hTakes hSame]
      · rw [spared_cons_of_not _ hFresh]
        have hCase := bindClient_cases net leases a c
        generalize hOut : bindClient net leases a c = out at hCase
        cases hCase with
        | keyless hKey => rw [(walk_cons_ok hOut cs).1, ih hFree]
        | held ip hKey hHeld => rw [(walk_cons_ok hOut cs).1, ih hFree]
        | taken ip hKey hNone hFree => exact absurd ⟨hKey, hNone⟩ hFresh
        | exhausted e hKey hNone hFree => exact absurd ⟨hKey, hNone⟩ hFresh

end Loop

/-- The allocator and the records of the access list give the key this address. -/
def HoldsAddress (agent : Agent) (key ip : String) : Prop :=
  agent.allocator.lookup key = ip ∧
    ∀ m ∈ agent.store.members, ∀ c ∈ m.clients, c.wgPublicKey = key → c.tunnelIP = ip

theorem lookup_eq_iff {a : Allocator} {key ip : String} (h : ip ≠ "") :
    a.lookup key = ip ↔ a.allocated.lookup key = some ip := by
  rw [Allocator.lookup]
  cases a.allocated.lookup key with
  | none => simp [h.symm]
  | some held => simp

/-- A key with a verified lease is registered. -/
theorem registered_of_leaseIP {st : DeviceState} {key : String}
    (h : leaseIP (verifiedLeases env st) key ≠ "") : key ∈ registeredKeys st := by
  obtain ⟨e, he⟩ : ∃ e, (verifiedLeases env st).reverse.find? (·.1 = key) = some e := by
    refine Option.ne_none_iff_exists'.mp fun hNone => h ?_
    rw [leaseIP, hNone]
    rfl
  have hMem := List.mem_reverse.mp (List.mem_of_find?_eq_some he)
  have hKey : e.1 = key := by simpa using List.find?_some he
  obtain ⟨dm, hdm, hMember⟩ := List.mem_flatMap.mp hMem
  obtain ⟨p, hp, hLease⟩ := List.mem_filterMap.mp hMember
  obtain ⟨lease, _, hVerify⟩ := Option.bind_eq_some_iff.mp hLease
  refine List.mem_flatMap.mpr ⟨dm, hdm, List.mem_map.mpr ⟨p, hp, ?_⟩⟩
  split at hVerify
  · cases hVerify
    exact hKey
  · cases hVerify

namespace Accepted

variable {env : Env} {now : Time} {agent : Agent} {msg : TunnelMessage}
  (a : Accepted env now agent msg)

variable {key : String}

theorem result_lookup_eq_iff (exec : List String → Bool) {ip : String}
    (hListed : key ∈ registeredKeys a.st) (hIP : ip ≠ "") :
    (a.result exec).allocator.lookup key = ip ↔ a.binding.1.allocated.lookup key = some ip := by
  rw [← a.clientKeys_members] at hListed
  rw [lookup_eq_iff hIP, a.result_allocated_of_listed exec hListed]

/-- The clients in front of the first one with the key, that one, and the rest. -/
theorem exists_split (hListed : key ∈ registeredKeys a.st) :
    ∃ before c after, a.entries.flatMap (·.clients) = before ++ c :: after ∧ c.wgPublicKey = key ∧
      key ∉ before.map (·.wgPublicKey) ∧
      (registeredKeys a.st).takeWhile (· ≠ key) = before.map (·.wgPublicKey) := by
  obtain ⟨ks, ls, hKeys, hFirst⟩ := List.eq_append_cons_of_mem hListed
  have hAll : (a.entries.flatMap (·.clients)).map (·.wgPublicKey) = ks ++ key :: ls := by
    rw [← hKeys, ← a.clientKeys_entries, Acl.clientKeys, List.map_flatMap]
  obtain ⟨before, rest, hSplit, rfl, hRest⟩ := List.map_eq_append_iff.mp hAll
  obtain ⟨c, after, rfl, hc, _⟩ := List.map_eq_cons_iff.mp hRest
  refine ⟨before, c, after, hSplit, hc, hFirst, ?_⟩
  rw [hKeys, List.takeWhile_append_of_pos]
  · simp
  · intro k hk
    exact decide_eq_true fun hSame => hFirst (hSame ▸ hk)

theorem holdsAddress_iff (exec : List String → Bool) {ip : String} (hKey : key ≠ "")
    (hListed : key ∈ registeredKeys a.st) (hIP : ip ≠ "") :
    HoldsAddress (a.result exec) key ip ↔ a.binding.1.allocated.lookup key = some ip := by
  rw [HoldsAddress, a.result_lookup_eq_iff exec hListed hIP, a.result_members exec]
  refine and_iff_left_of_imp fun hHeld n hn d hd hSame => ?_
  have hBound := (a.record_lookup hn hd).2 (hSame ▸ hKey)
  rw [hSame] at hBound
  exact Option.some.inj (hBound.symm.trans hHeld)

/-- The loop over all clients of an accepted device state succeeds. -/
theorem walk_ok : ∃ ds, (walk (bindClient env.subnet a.leases) agent.allocator
    (a.entries.flatMap (·.clients))).2 = .ok ds := by
  have hOk := a.binding_eq.2
  rw [a.binds] at hOk
  cases hWalk : (walk (bindClient env.subnet a.leases) agent.allocator
    (a.entries.flatMap (·.clients))).2 with
  | error e =>
      rw [hWalk] at hOk
      cases hOk
  | ok ds => exact ⟨ds, rfl⟩

end Accepted

/-- A key that the allocator does not know, with a verified lease of a free address, gets that
address just if the fresh keys before it leave it free, as counted in the allocator before the
push: none of them has a lease for it, and they are no more than the hosts they can take
without reaching it. -/
theorem lease_restored_iff (env : Env) (now : Time) (exec : List String → Bool)
    (agent after : Agent) (msg : TunnelMessage) (pending : List AdmittanceCertificate)
    (hApplied : agent.handleDeviceState env now exec msg = (after, .applied pending))
    (st : DeviceState) (hDecode : decodeDeviceState env msg = some st) (key ip : String)
    (hNew : agent.allocator.allocated.lookup key = none)
    (hLease : leaseIP (verifiedLeases env st) key = ip) (hSubnet : env.subnet.inSubnet ip = true)
    (hFree : ¬ InUse agent.allocator ip) :
    HoldsAddress after key ip ↔ key ≠ "" ∧ Spared env.subnet (verifiedLeases env st)
      agent.allocator ((registeredKeys st).takeWhile (· ≠ key)) ip := by
  have hIP : ip ≠ "" := env.subnet.ne_empty_of_mem_hosts (env.subnet.mem_hosts_of_inSubnet hSubnet)
  have hListed : key ∈ registeredKeys st := registered_of_leaseIP (hLease ▸ hIP)
  obtain ⟨a, hResult⟩ : ∃ a : Accepted env now agent msg, after = a.result exec := by
    obtain ⟨a, ha⟩ := exists_handle_eq ((isApplied_iff_accepted env now exec agent msg).mp
      (by rw [hApplied]; rfl)) exec
    exact ⟨a, congrArg Prod.fst (hApplied.symm.trans ha)⟩
  obtain rfl : a.st = st := Option.some.inj (a.decodes.symm.trans hDecode)
  subst hResult
  by_cases hKey : key = ""
  · -- The loop passes over a client without a key.
    refine iff_of_false (fun h => hIP ?_) fun h => h.1 hKey
    rw [← h.1, hKey, Allocator.lookup, a.result_allocated,
      a.keyless_binding (hKey ▸ hNew)]
    split <;> rfl
  · obtain ⟨before, c, rest, hClients, rfl, hBefore, hTake⟩ := a.exists_split hListed
    obtain ⟨ds, hWalk⟩ := a.walk_ok
    have hLoop : a.binding.1 = (walk (bindClient env.subnet a.leases) agent.allocator
        (before ++ c :: rest)).1 := by
      rw [a.binding_eq.1, hClients]
    rw [hClients] at hWalk
    rw [← a.leases_eq] at hLease
    rw [a.holdsAddress_iff exec hKey hListed hIP, and_iff_right hKey, hTake, hLoop, ← a.leases_eq,
      lookup_walk_lease_iff hWalk hBefore hKey hNew hLease hSubnet hFree,
      notMem_used_walk_iff hSubnet hFree]

/-- A lease that the agent signed. -/
def sampleLease (wgPublicKey tunnelIP : String) : TunnelIPLease :=
  let body := (leaseSignedBytes "d" wgPublicKey tunnelIP).toOption.getD []
  { deviceID := "d", wgPublicKey := wgPublicKey, tunnelIP := tunnelIP
    nasSignature := encode64 (sampleSignature (sampleKey 7) body) }

theorem verifyTunnelIPLease_sample (states : List DeviceState) (wgPublicKey : String)
    {tunnelIP : String} (hIP : tunnelIP ≠ "") :
    verifyTunnelIPLease (sampleEnv states) (sampleLease wgPublicKey tunnelIP) "d" wgPublicKey =
      .ok () := by
  have hHeight : (Doc.obj [("deviceId", .str "d"), ("tunnelIp", .str tunnelIP),
      ("wgPublicKey", .str wgPublicKey)]).height ≤ maxNestingDepth := by
    simp [Doc.height, Doc.heightMembers, maxNestingDepth]
  obtain ⟨body, hBody⟩ : ∃ body, leaseSignedBytes "d" wgPublicKey tunnelIP = .ok body := by
    rw [leaseSignedBytes, Canonjson.marshal, Canonjson.marshalRaw_print true hHeight rfl]
    exact ⟨_, rfl⟩
  have hSignature : (sampleLease wgPublicKey tunnelIP).nasSignature =
      encode64 (sampleSignature (sampleKey 7) body) := by
    simp only [sampleLease, hBody, Except.toOption, Option.getD_some]
  have hSigned : (sampleLease wgPublicKey tunnelIP).nasSignature ≠ "" := by
    rw [hSignature]
    exact sampleSignature_ne_empty _ _
  have hDevice : (sampleLease wgPublicKey tunnelIP).deviceID = "d" := rfl
  have hKey : (sampleLease wgPublicKey tunnelIP).wgPublicKey = wgPublicKey := rfl
  have hAddress : (sampleLease wgPublicKey tunnelIP).tunnelIP = tunnelIP := rfl
  rw [verifyTunnelIPLease, hDevice, hKey, hAddress, if_neg (not_not_intro rfl),
    if_neg (not_not_intro rfl), if_neg hIP, if_neg hSigned, hSignature, decode64_encode64, hBody]
  exact if_pos ((sampleEnv states).verify_sign body)

/-- A client of the owner, with a lease if an address is given. -/
def leasedClient (key : PublicKey) (c : String × Option String) : DSClient :=
  { sampleClient key "a" c.1 with ipLease := c.2.map (sampleLease c.1) }

theorem verifiedLease_leasedClient (states : List DeviceState) (key : PublicKey)
    {c : String × Option String} (h : c.2 ≠ some "") :
    verifiedLease (sampleEnv states) (leasedClient key c) = c.2.map fun ip => (c.1, ip) := by
  obtain ⟨wgPublicKey, lease⟩ := c
  cases lease with
  | none => rfl
  | some ip =>
      have hVerify := verifyTunnelIPLease_sample states wgPublicKey fun hIP => h (congrArg some hIP)
      have hDevice : (sampleEnv states).deviceID = "d" := rfl
      have hKey : (leasedClient key (wgPublicKey, some ip)).wgPublicKey = wgPublicKey := rfl
      have hLease : (leasedClient key (wgPublicKey, some ip)).ipLease =
          some (sampleLease wgPublicKey ip) := rfl
      rw [verifiedLease, hLease, Option.bind_some, hDevice, hKey, hVerify]
      rfl

/-- The owner, with leases for some of the clients. -/
def leasedOwner (key : PublicKey) (clients : List (String × Option String)) : DSMember :=
  { sampleOwner key [] with clients := clients.map (leasedClient key) }

/-- What the verification makes of that row. -/
def leasedRow (key : PublicKey) (clients : List (String × Option String)) : VerifiedMember :=
  { sampleRow (leasedOwner key clients) [] "active" (clients.map (·.1)) with
    leases := clients.filterMap fun c => c.2.map fun ip => (c.1, ip) }

theorem verifyClient_leasedClient (states : List DeviceState) (store : Acl.Store) (key : PublicKey)
    {c : String × Option String} (hLease : c.2 ≠ some "") :
    verifyClient (sampleEnv states) store key "a" (leasedClient key c)
        (sampleEnvelope key "a" (sampleRegistration "a" c.1)) =
      .ok ⟨sampleRecord c.1, c.2.map fun ip => (c.1, ip)⟩ := by
  have hClient := verifyClient_sample states store key (show "a" ≠ "" by decide) c.1
  obtain ⟨p, hPayload, h⟩ := bind_eq_ok.mp hClient
  obtain ⟨_, hAuth, h⟩ := bind_eq_ok.mp h
  obtain ⟨_, hMatch, _⟩ := bind_eq_ok.mp h
  rw [← verifiedLease_leasedClient states key hLease]
  exact bind_eq_ok.mpr ⟨p, hPayload, bind_eq_ok.mpr ⟨_, hAuth, bind_eq_ok.mpr ⟨_, hMatch, rfl⟩⟩⟩

theorem registeredClients_leasedOwner (key : PublicKey) (clients : List (String × Option String)) :
    registeredClients (leasedOwner key clients) = clients.map fun c =>
      (leasedClient key c, sampleEnvelope key "a" (sampleRegistration "a" c.1)) := by
  rw [registeredClients, leasedOwner, List.filterMap_map]
  exact congrFun List.filterMap_eq_map' _

theorem verifyMember_leasedOwner (states : List DeviceState) (store : Acl.Store)
    (owner key : PublicKey) (now : Time) (hLeases : ∀ c ∈ clients, c.2 ≠ some "") :
    verifyMember (sampleEnv states) store owner now [] (leasedOwner key clients) =
      .ok (leasedRow key clients) := by
  have hEach : each (fun c => verifyClient (sampleEnv states) store key "a" c.1 c.2)
      (registeredClients (leasedOwner key clients)) =
        .ok (clients.map fun c => ⟨sampleRecord c.1, c.2.map fun ip => (c.1, ip)⟩) := by
    rw [registeredClients_leasedOwner, each_eq_ok, List.forall₂_map_left_iff,
      List.forall₂_map_right_iff, List.forall₂_same]
    exact fun c hc => verifyClient_leasedClient states store key (hLeases c hc)
  refine bind_eq_ok.mpr ⟨_, rfl, bind_eq_ok.mpr ⟨key, ?_, bind_eq_ok.mpr ⟨_, rfl,
    bind_eq_ok.mpr ⟨_, rfl, bind_eq_ok.mpr ⟨_, hEach, ?_⟩⟩⟩⟩⟩
  · rw [show (leasedOwner key clients).identityKey = key.base64 from rfl, decodeEd25519_base64]
    rfl
  · simp [leasedRow, sampleRow, allowedApps, Function.comp_def, List.filterMap_map]
    rfl

theorem verifiedLeases_leasedOwner (states : List DeviceState) {st : DeviceState}
    {key : PublicKey} (h : st.members = [leasedOwner key clients])
    (hLeases : ∀ c ∈ clients, c.2 ≠ some "") :
    verifiedLeases (sampleEnv states) st = (leasedRow key clients).leases := by
  rw [verifiedLeases, h, List.flatMap_singleton, registeredClients_leasedOwner, List.filterMap_map]
  exact List.filterMap_congr fun c hc => verifiedLease_leasedClient states key (hLeases c hc)

/-- A state of the owner with these clients. -/
def leasedState (clients : List (String × Option String)) : DeviceState :=
  { deviceID := "d", generation := 1, members := [leasedOwner (sampleKey 1) clients], apps := [] }

theorem registeredKeys_leasedState (clients : List (String × Option String)) :
    registeredKeys (leasedState clients) = clients.map (·.1) := by
  rw [registeredKeys, leasedState, List.flatMap_singleton, memberKeys,
    registeredClients_leasedOwner, List.map_map]
  rfl

/-- A fresh agent applies such a state. -/
theorem handle_leasedState (hLeases : ∀ c ∈ clients, c.2 ≠ some "") :
    (sampleAgent (sampleEnv [leasedState clients])).handleDeviceState
        (sampleEnv [leasedState clients]) 0 (fun _ => true) (sampleState (leasedState clients)) =
      completeApply (sampleEnv [leasedState clients]) (fun _ => true)
        ((sampleAgent (sampleEnv [leasedState clients])).install
          (sampleEnv [leasedState clients]) 0 1 ⟨[], [leasedRow (sampleKey 1) clients]⟩) := by
  have hBegin := beginState_sample [leasedState clients] 0 (leasedState clients)
    (sampleAgent (sampleEnv [leasedState clients])) rfl rfl
    (show (0 : Int) ≤ 1 by decide) rfl (.cons (verifyMember_leasedOwner _ _ _ _ _ hLeases) .nil)
  rw [handleDeviceState_of_decode (decodeDeviceState_sample (reads_head _ _)), hBegin]
  rfl

/-- A client without a lease in front of one with a lease of the first host. -/
def lateLease : List (String × Option String) :=
  [(sampleWGKey 3, none), (sampleWGKey 4, some "100.64.0.2")]

/-- The same client in front of one with a lease of the second host. -/
def spareLease : List (String × Option String) :=
  [(sampleWGKey 3, none), (sampleWGKey 4, some "100.64.0.3")]

/-- A fresh agent that can read this state. -/
def leasedAgent (clients : List (String × Option String)) : Agent :=
  sampleAgent (sampleEnv [leasedState clients])

theorem not_inUse_leasedAgent (clients : List (String × Option String)) {ip : String}
    (hSubnet : (sampleEnv []).subnet.inSubnet ip = true) :
    ¬ InUse (leasedAgent clients).allocator ip := by
  rintro (hReserved | ⟨key, hKey⟩)
  · exact Subnet.notMem_reserved _ (Subnet.mem_hosts_of_inSubnet _ hSubnet) hReserved
  · simp [leasedAgent, Agent.fresh, Pool.fresh] at hKey

/-- What becomes of that state. -/
def leasedOutcome (clients : List (String × Option String)) : Agent × DeviceStateResult :=
  (leasedAgent clients).handleDeviceState (sampleEnv [leasedState clients]) 0 (fun _ => true)
    (sampleState (leasedState clients))

/-- The client without a lease takes the one host below the leased address. -/
theorem spared_spareLease : Spared (sampleEnv [leasedState spareLease]).subnet
    (leasedRow (sampleKey 1) spareLease).leases (leasedAgent spareLease).allocator
    [sampleWGKey 3] "100.64.0.3" := by
  have hFresh : freshKeys (leasedAgent spareLease).allocator [sampleWGKey 3] = {sampleWGKey 3} := by
    decide +kernel
  have hSpare : "100.64.0.2" ∈ spareHosts (sampleEnv [leasedState spareLease]).subnet
      (leasedRow (sampleKey 1) spareLease).leases (leasedAgent spareLease).allocator
      [sampleWGKey 3] "100.64.0.3" := by
    refine Finset.mem_filter.mpr ⟨Pool.mem_free.mpr ⟨?_, fun hUsed => ?_⟩, Or.inl ?_⟩
    · exact Subnet.mem_hosts_of_inSubnet _ (by decide +kernel)
    · exact not_inUse_leasedAgent spareLease (by decide +kernel) (Or.inl hUsed)
    · decide +kernel
  refine ⟨?_, ?_⟩
  · rw [hFresh]
    decide +kernel
  · rw [hFresh, Finset.card_singleton]
    exact Finset.card_pos.mpr ⟨_, hSpare⟩

theorem lease_restored_spared :
    HoldsAddress (leasedOutcome spareLease).1 (sampleWGKey 4) "100.64.0.3" := by
  have hLeases : ∀ c ∈ spareLease, c.2 ≠ some "" := by decide
  have hApplied : (leasedOutcome spareLease).2.isApplied = true := by
    rw [leasedOutcome, leasedAgent, handle_leasedState hLeases]
    decide +kernel
  have hVerified : verifiedLeases (sampleEnv [leasedState spareLease]) (leasedState spareLease) =
      (leasedRow (sampleKey 1) spareLease).leases := verifiedLeases_leasedOwner _ rfl hLeases
  have hBefore : (registeredKeys (leasedState spareLease)).takeWhile (· ≠ sampleWGKey 4) =
      [sampleWGKey 3] := by
    rw [registeredKeys_leasedState]
    decide +kernel
  have hSubnet : (sampleEnv []).subnet.inSubnet "100.64.0.3" = true := by decide +kernel
  rcases hHandled : leasedOutcome spareLease with ⟨after, result⟩
  rw [hHandled] at hApplied
  obtain ⟨pending, rfl⟩ := DeviceStateResult.exists_applied hApplied
  refine (lease_restored_iff (sampleEnv [leasedState spareLease]) 0 (fun _ => true)
    (leasedAgent spareLease) after (sampleState (leasedState spareLease))
    pending hHandled (leasedState spareLease)
    (decodeDeviceState_sample (reads_head _ _)) (sampleWGKey 4) "100.64.0.3"
    (Finmap.lookup_empty _) ?_ hSubnet (not_inUse_leasedAgent _ hSubnet)).mpr
    ⟨by decide +kernel, ?_⟩
  · rw [hVerified]
    decide +kernel
  · rw [hVerified, hBefore]
    exact spared_spareLease

/-- The lease is for a free address of the subnet and no other client has one, but the client
in front is allocated its address. -/
theorem late_lease_lost :
    verifiedLeases (sampleEnv [leasedState lateLease]) (leasedState lateLease) =
      [(sampleWGKey 4, "100.64.0.2")] ∧
    (sampleEnv [leasedState lateLease]).subnet.inSubnet "100.64.0.2" = true ∧
    ¬ InUse (leasedAgent lateLease).allocator "100.64.0.2" ∧
    (leasedOutcome lateLease).2.isApplied = true ∧
    (leasedOutcome lateLease).1.allocator.lookup (sampleWGKey 4) = "100.64.0.3" := by
  have hLeases : ∀ c ∈ lateLease, c.2 ≠ some "" := by decide
  refine ⟨verifiedLeases_leasedOwner _ rfl hLeases, by decide +kernel,
    not_inUse_leasedAgent _ (by decide +kernel), ?_⟩
  rw [leasedOutcome, leasedAgent, handle_leasedState hLeases]
  decide +kernel

end Tunnel
