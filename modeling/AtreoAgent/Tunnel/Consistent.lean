import AtreoAgent.Acl.Indexes
import AtreoAgent.Tunnel.Applied

/-! The agreement between the access list, the allocator and the peers in a run whose
commands succeed. A client record has the address its key is bound to, and a peer has a
valid key that is in the access list, and the address its key is bound to. For which keys
the records agree is left open. -/
namespace Tunnel

open Codec Json Atreolink WireGuard Fallible

/-- A class of keys that are not empty, with all that `AddPeer` accepts. -/
structure KeyClass (Good : String → Prop) : Prop where
  covers : ∀ key, validateWGPublicKey key = true → Good key
  nonempty : ∀ key, Good key → key ≠ ""

/-- The smallest such class. -/
theorem keyClass_valid : KeyClass (validateWGPublicKey · = true) where
  covers _ hKey := hKey
  nonempty key hKey hEmpty := by simp [hEmpty, validateWGPublicKey] at hKey

/-- A record agrees with the allocator if its key is in the class. -/
def Recorded (env : Env) (Good : String → Prop) (a : Allocator) (c : ClientRecord) : Prop :=
  (c.wgPublicKey = "" → c.tunnelIP = "") ∧
    (Good c.wgPublicKey → a.allocated.lookup c.wgPublicKey = some c.tunnelIP ∧
      c.tunnelIPv6 = env.server.tunnelIPv6 c.tunnelIP)

/-- A peer that belongs to a client record. -/
structure Installed (env : Env) (members : List MemberACLEntry) (a : Allocator) (key : String)
    (peer : Peer) : Prop where
  valid : validateWGPublicKey key = true
  listed : key ∈ Acl.clientKeys members
  bound : ∃ ip, a.allocated.lookup key = some ip ∧ peer = ⟨key, ip, env.server.tunnelIPv6 ip⟩

structure Consistent (env : Env) (Good : String → Prop) (agent : Agent) : Prop where
  sound : agent.allocator.Sound env.subnet
  keyless : agent.allocator.allocated.lookup "" = none
  indexed : agent.store.Coherent
  records : ∀ m ∈ agent.store.members, ∀ c ∈ m.clients, Recorded env Good agent.allocator c
  peers : ∀ key peer, agent.peers.lookup key = some peer →
    Installed env agent.store.members agent.allocator key peer

variable {env : Env} {Good : String → Prop} {agent : Agent}

theorem Recorded.mono {a b : Allocator} {c : ClientRecord} (h : Recorded env Good a c)
    (hKeeps : Keeps a b) : Recorded env Good b c :=
  ⟨h.1, fun hGood => ⟨hKeeps _ _ (h.2 hGood).1, (h.2 hGood).2⟩⟩

theorem Installed.mono {members : List MemberACLEntry} {a b : Allocator} {key : String} {peer : Peer}
    (h : Installed env members a key peer) (hKeeps : Keeps a b) : Installed env members b key peer := by
  obtain ⟨ip, hBound, hPeer⟩ := h.bound
  exact ⟨h.valid, h.listed, ip, hKeeps _ _ hBound, hPeer⟩

/-- A sound allocator that binds more keys agrees as well. -/
theorem Consistent.extend (h : Consistent env Good agent) {b : Allocator} (hSound : b.Sound env.subnet)
    (hKeyless : b.allocated.lookup "" = none) (hKeeps : Keeps agent.allocator b) :
    Consistent env Good { agent with allocator := b } :=
  ⟨hSound, hKeyless, h.indexed, fun m hm c hc => (h.records m hm c hc).mono hKeeps,
    fun key peer hPeer => (h.peers key peer hPeer).mono hKeeps⟩

/-- Fewer peers agree as well. -/
theorem Consistent.fewerPeers (h : Consistent env Good agent) {peers : Peers}
    (hFewer : ∀ key peer, peers.lookup key = some peer → agent.peers.lookup key = some peer) :
    Consistent env Good { agent with peers := peers } :=
  ⟨h.sound, h.keyless, h.indexed, h.records,
    fun key peer hPeer => h.peers key peer (hFewer key peer hPeer)⟩

theorem consistent_fresh (env : Env) (Good : String → Prop) (pin : Option PublicKey) :
    Consistent env Good (Agent.fresh env pin) where
  sound := Allocator.sound_new env.subnet
  keyless := by simp [Agent.fresh, Pool.fresh]
  indexed := rfl
  records m hm := by simp [Agent.fresh, Acl.Store.new] at hm
  peers key peer h := by simp [Agent.fresh] at h

section Apply

variable {now : Time} {msg : TunnelMessage}

namespace Accepted

variable (a : Accepted env now agent msg)

theorem consistent (hClass : KeyClass Good) (h : Consistent env Good agent)
    (exec : List String → Bool) : Consistent env Good (a.result exec) := by
  have hSound := a.sound_binding h.sound
  have hListed : ∀ n ∈ a.members, ∀ d ∈ n.clients, d.wgPublicKey ∈ Acl.clientKeys a.members :=
    fun n hn d hd => Acl.mem_clientKeys.mpr ⟨n, hn, d, hd, rfl⟩
  refine ⟨(evolves_foldl_perform a.application.ops a.replaced).sound hSound, ?_, ?_, ?_, ?_⟩
  · rw [a.result_allocated, a.keyless_binding h.keyless, ite_self]
  · rw [a.result_store, (Acl.Store.reconcile_eq_ok a.reconciles).2.1]
    exact (Acl.Store.coherent_rebuildIndexes _).setAppliedGeneration _ _
  · rw [a.result_members]
    intro n hn d hd
    have hBound := a.records_bound hSound n hn d hd
    refine ⟨hBound.1, fun hGood => ?_⟩
    rw [a.result_allocated_of_listed exec (hListed n hn d hd)]
    exact hBound.2 (hClass.nonempty _ hGood)
  · intro key peer hPeer
    rw [a.result_members]
    by_cases hKey : key ∈ Acl.clientKeys a.members
    · revert peer
      change ∀ peer, (a.application.ops.foldl (Agent.perform env exec) a.replaced).peers.lookup key =
        some peer → _
      refine foldl_perform_peer (Q := fun peer => ∀ p, peer = some p →
        Installed env a.members (a.result exec).allocator key p) ?_ (Or.inl ?_)
      · intro op hOp hOpKey current hCurrent p hp
        rcases mem_peerOps.mp hOp with ⟨k, _, rfl⟩ | ⟨m, hm, c, hc, hNe, ⟨_, rfl⟩ | ⟨_, _, rfl⟩⟩
        · rw [← hOpKey] at hp
          cases (Finmap.lookup_erase _ _).symm.trans hp
        · rw [← hOpKey] at hp
          cases (Finmap.lookup_erase _ _).symm.trans hp
        · rw [Agent.perform] at hp
          split at hp
          next peers hAdd =>
            -- The peer that is put in place has the address of its record.
            obtain ⟨hValid, rfl⟩ := Server.addPeer_eq_ok hAdd
            subst hOpKey
            cases (Finmap.lookup_insert _).symm.trans hp
            refine ⟨hValid, hKey, c.tunnelIP, ?_, rfl⟩
            rw [a.result_allocated_of_listed exec hKey]
            exact ((a.records_bound hSound m hm c hc).2 hNe).1
          next => exact hCurrent p hp
      · intro p hp
        obtain ⟨hValid, _, ip, hBound, rfl⟩ := h.peers key p hp
        refine ⟨hValid, hKey, ip, ?_, rfl⟩
        rw [a.result_allocated_of_listed exec hKey]
        exact a.keeps_binding key ip hBound
    · have hOld : ∀ key peer, agent.peers.lookup key = some peer →
          key ≠ "" ∧ key ∈ Acl.clientKeys agent.store.members :=
        fun key peer hPeer => ⟨fun hEmpty => by
          simpa [hEmpty, validateWGPublicKey] using (h.peers key peer hPeer).valid,
          (h.peers key peer hPeer).listed⟩
      rw [a.no_peer_of_unlisted hOld exec hKey] at hPeer
      cases hPeer

end Accepted

end Apply

section Provision

/-- A provision that passes its checks is for a member of the access list. -/
theorem exists_member_of_checkProvision {now : Time} {msg : TunnelMessage} {req : ProvisionRequest}
    (h : (agent.checkProvision env now msg).2 = .ok req) :
    ∃ m, agent.store.lookupByMemberID req.memberID = some m := by
  obtain ⟨p, entry, _, _, hCheck, _⟩ := checkProvision_eq_ok h
  obtain ⟨_, _, ⟨m, _, hm, _⟩, hMember, _⟩ := checkNonce_eq_ok hCheck
  exact ⟨m, hMember ▸ hm⟩

/-- No row of the member but the first holds the key. -/
def HeldOnce (members : List MemberACLEntry) (memberID key : String) : Prop :=
  ∀ m ∈ (members.filter (·.memberID = memberID)).tail, ∀ c ∈ m.clients, c.wgPublicKey ≠ key

variable {exec : List String → Bool} {key ip : String} {b : Allocator}

/-- An allocated address is not that of a record with another key. -/
theorem Consistent.address_ne (h : Consistent env Good agent)
    (hAllocate : agent.allocator.allocate env.subnet key = some (b, ip)) {m : MemberACLEntry}
    {c : ClientRecord} (hm : m ∈ agent.store.members) (hc : c ∈ m.clients) (hGood : Good c.wgPublicKey)
    (hNe : c.wgPublicKey ≠ key) : c.tunnelIP ≠ ip := by
  rintro rfl
  obtain ⟨hSound, hAssign, hKeeps⟩ := h.sound.allocate hAllocate
  have hKey : b.assignment key = some c.tunnelIP := by rw [hAssign, Function.update_self]
  exact hNe (hSound.injective _ _ _ (hKeeps _ _ ((h.records m hm c hc).2 hGood).1) hKey)

/-- The peers of other keys stay when a client is added, and possibly removed again. -/
theorem Consistent.peers_rewriteClients (hClass : KeyClass Good) (h : Consistent env Good agent)
    {memberID : String} {rec : ClientRecord}
    (hAllocate : agent.allocator.allocate env.subnet rec.wgPublicKey = some (b, rec.tunnelIP))
    {rewrite : List ClientRecord → List ClientRecord}
    (hRewrite : ∀ clients, ∀ c ∈ clients, c.wgPublicKey ≠ rec.wgPublicKey → c ∈ rewrite clients)
    {allocator : Allocator}
    (hOthers : ∀ other, other ≠ rec.wgPublicKey →
      allocator.allocated.lookup other = agent.allocator.allocated.lookup other)
    {other : String} {peer : Peer} (hPeer : agent.peers.lookup other = some peer)
    (hNe : other ≠ rec.wgPublicKey) :
    Installed env (Acl.Store.rewriteClients memberID rec rewrite agent.store.members) allocator other
      peer := by
  obtain ⟨hValid, hListed, held, hBound, rfl⟩ := h.peers other peer hPeer
  refine ⟨hValid, ?_, held, by rw [hOthers other hNe, hBound], rfl⟩
  obtain ⟨m, hm, c, hc, rfl⟩ := Acl.mem_clientKeys.mp hListed
  exact Acl.Store.key_mem_rewriteClients hRewrite hm hc hNe
    fun _ => h.address_ne hAllocate hm hc (hClass.covers _ hValid) hNe

theorem Consistent.peerRefused (hClass : KeyClass Good) (h : Consistent env Good agent)
    {memberID : String} {rec : ClientRecord} {store : Acl.Store}
    (hAllocate : agent.allocator.allocate env.subnet rec.wgPublicKey = some (b, rec.tunnelIP))
    (hAdd : agent.store.addClient memberID rec = (store, true))
    (hInvalid : validateWGPublicKey rec.wgPublicKey = false)
    (hOnce : Good rec.wgPublicKey → HeldOnce agent.store.members memberID rec.wgPublicKey) :
    Consistent env Good
      { agent with
        store := (store.removeClient memberID rec.wgPublicKey).1
        allocator := b.release rec.wgPublicKey } := by
  obtain ⟨hSound, hAssign, _⟩ := h.sound.allocate hAllocate
  have hOthers : ∀ other, other ≠ rec.wgPublicKey →
      (b.release rec.wgPublicKey).allocated.lookup other = agent.allocator.allocated.lookup other := by
    intro other hNe
    have hSame := congrFun hAssign other
    rw [Function.update_of_ne hNe] at hSame
    rw [Allocator.lookup_release, if_neg hNe]
    exact hSame
  have hMembers := Acl.Store.removeClient_addClient hAdd
  refine ⟨hSound.release _, ?_, (Acl.Store.Coherent.addClient hAdd).removeClient _ _, ?_, ?_⟩
  · rw [hOthers "" (Ne.symm (Acl.Store.addClient_eq_true hAdd).1), h.keyless]
  · rw [hMembers]
    intro n hn d hd
    obtain ⟨m, hm, _, _, hFrom⟩ := Acl.Store.mem_rewriteClients hn
    -- The record was there, and if its key matters it is not the refused one.
    have hOld : d ∈ m.clients ∧ (Good d.wgPublicKey → d.wgPublicKey ≠ rec.wgPublicKey) := by
      rcases hFrom with ⟨_, hClients⟩ | ⟨_, rfl, hLater⟩ | ⟨_, hClients⟩
      · rw [hClients] at hd
        obtain ⟨hMem, hApart⟩ := List.mem_filter.mp hd
        refine ⟨hMem, fun _ hSame => ?_⟩
        simp [Acl.Store.keepsApart, hSame] at hApart
      · refine ⟨hd, fun hGood hSame => ?_⟩
        exact hOnce (hSame ▸ hGood) n hLater d hd hSame
      · rw [hClients] at hd
        obtain ⟨hMem, hOther⟩ := List.mem_filter.mp hd
        exact ⟨hMem, fun _ => of_decide_eq_true hOther⟩
    obtain ⟨hEmpty, hAgrees⟩ := h.records m hm d hOld.1
    refine ⟨hEmpty, fun hGood => ?_⟩
    rw [hOthers _ (hOld.2 hGood)]
    exact hAgrees hGood
  · rw [hMembers]
    intro other peer hPeer
    have hNe : other ≠ rec.wgPublicKey := by
      rintro rfl
      rw [(h.peers _ peer hPeer).valid] at hInvalid
      cases hInvalid
    exact h.peers_rewriteClients hClass hAllocate
      (fun clients c hc hKey => List.mem_filter.mpr ⟨hc, decide_eq_true hKey⟩) hOthers hPeer hNe

theorem Consistent.installed (hClass : KeyClass Good) (h : Consistent env Good agent)
    {memberID : String} {store : Acl.Store} {peers : Peers}
    (hAllocate : agent.allocator.allocate env.subnet key = some (b, ip))
    (hAdd : agent.store.addClient memberID
      { wgPublicKey := key, tunnelIP := ip, tunnelIPv6 := env.server.tunnelIPv6 ip } = (store, true))
    (hPeer : env.server.addPeer exec agent.peers key ip = .ok peers) :
    Consistent env Good { agent with store := store, allocator := b, peers := peers } := by
  obtain ⟨hSound, hAssign, hKeeps⟩ := h.sound.allocate hAllocate
  obtain ⟨hValid, rfl⟩ := Server.addPeer_eq_ok hPeer
  obtain ⟨hKey, _, hStore⟩ := Acl.Store.addClient_eq_true hAdd
  have hHeld : b.allocated.lookup key = some ip := by
    have hSame := congrFun hAssign key
    rwa [Function.update_self] at hSame
  have hOthers : ∀ other, other ≠ key →
      b.allocated.lookup other = agent.allocator.allocated.lookup other := by
    intro other hNe
    have hSame := congrFun hAssign other
    rwa [Function.update_of_ne hNe] at hSame
  have hSome : ip ≠ "" := hSound.ne_empty hHeld
  have hMembers : store.members = Acl.Store.rewriteClients memberID
      { wgPublicKey := key, tunnelIP := ip, tunnelIPv6 := env.server.tunnelIPv6 ip }
      (Acl.Store.putClient
        { wgPublicKey := key, tunnelIP := ip, tunnelIPv6 := env.server.tunnelIPv6 ip })
      agent.store.members := by rw [hStore]; rfl
  refine ⟨hSound, ?_, Acl.Store.Coherent.addClient hAdd, ?_, ?_⟩
  · rw [hOthers "" (Ne.symm hKey), h.keyless]
  · intro n hn d hd
    rw [hMembers] at hn
    obtain ⟨m, hm, _, hClients⟩ := Acl.Store.clients_of_rewriteClients hn
    have hKept : ∀ {c}, c ∈ m.clients → Recorded env Good b c :=
      fun hc => (h.records m hm _ hc).mono hKeeps
    rcases hClients d hd with hOld | hPut
    · exact hKept hOld
    · rcases Acl.Store.mem_putClient hPut with hMem | rfl | ⟨prev, hPrev, hSame, rfl⟩
      · exact hKept hMem
      · exact ⟨fun hEmpty => absurd hEmpty hKey, fun _ => ⟨hHeld, rfl⟩⟩
      · -- What the record takes over is what it would have derived.
        refine ⟨fun hEmpty => absurd hEmpty hKey, fun hGood => ?_⟩
        obtain ⟨hPrevHeld, hPrevIPv6⟩ := (hKept hPrev).2 (by rw [hSame]; exact hGood)
        have hPrevIP : prev.tunnelIP = ip := by
          rw [hSame] at hPrevHeld
          exact Option.some.inj (hPrevHeld.symm.trans hHeld)
        rw [hPrevIP] at hPrevIPv6
        simp only [Acl.ClientRecord.fillFrom, if_neg hSome]
        refine ⟨hHeld, ?_⟩
        split
        · exact hPrevIPv6
        · rfl
  · intro other peer hOther
    by_cases hNe : other = key
    · subst hNe
      cases (Finmap.lookup_insert _).symm.trans hOther
      exact ⟨hValid, Acl.Store.key_mem_addClient hAdd, ip, hHeld, rfl⟩
    · have hOld := (Finmap.lookup_insert_of_ne _ hNe).symm.trans hOther
      dsimp only
      rw [hMembers]
      exact h.peers_rewriteClients hClass hAllocate
        (fun clients c hc hKey => Acl.Store.mem_putClient_of_ne hc hKey) hOthers hOld hNe

/-- A provision for a member of the access list keeps the agreement, unless it frees the
address of a key that another row of the member still holds. -/
theorem Consistent.addClientPeer (hClass : KeyClass Good) (h : Consistent env Good agent)
    (hExec : ∀ command, exec command = true) {req : ProvisionRequest}
    (hMember : ∃ m ∈ agent.store.members, m.memberID = req.memberID)
    (hOnce : validateWGPublicKey req.clientKey = false → Good req.clientKey →
      HeldOnce agent.store.members req.memberID req.clientKey) :
    Consistent env Good (agent.addClientPeer env exec req).1 := by
  have hCase := addClientPeer_cases env exec agent req
  generalize (agent.addClientPeer env exec req).1 = next at hCase ⊢
  cases hCase with
  | noAddress => exact h
  | unknownMember allocator ip store hAllocate hAdd =>
      obtain ⟨hSound, hAssign, _⟩ := h.sound.allocate hAllocate
      rcases Acl.Store.addClient_eq_false hAdd with ⟨hKey, rfl⟩ | ⟨hUnknown, _⟩
      · -- The empty key is bound and released again.
        dsimp only at hKey
        have hLookup : ∀ other, (allocator.release req.clientKey).allocated.lookup other =
            agent.allocator.allocated.lookup other := by
          intro other
          have hSame := congrFun hAssign other
          rw [Allocator.lookup_release]
          split
          next hEq => rw [hEq, hKey, h.keyless]
          next hNe =>
            rw [Function.update_of_ne hNe] at hSame
            exact hSame
        exact h.extend (hSound.release _) (by rw [hLookup, h.keyless])
          fun other held hOther => by rw [hLookup, hOther]
      · obtain ⟨m, hm, hID⟩ := hMember
        exact absurd hID (hUnknown m hm)
  | peerRefused allocator ip store e hAllocate hAdd hPeer =>
      obtain ⟨hSound, hAssign, _⟩ := h.sound.allocate hAllocate
      have hInvalid : validateWGPublicKey req.clientKey = false := by
        by_contra hValid
        have hHost := hSound.host req.clientKey ip (by
          have hSame := congrFun hAssign req.clientKey
          rwa [Function.update_self] at hSame)
        rw [Server.addPeer_of_valid hExec _ (by simpa using hValid)
          (env.subnet.validateTunnelIPv4_of_mem_hosts hHost)] at hPeer
        cases hPeer
      exact h.peerRefused hClass hAllocate hAdd hInvalid (hOnce hInvalid)
  | installed allocator ip store peers hAllocate hAdd hPeer =>
      exact h.installed hClass hAllocate hAdd hPeer

end Provision

/-- A provision for a key that `AddPeer` refuses does not find it in a further row of its
member. -/
def RefusedKeyHeldOnce (env : Env) (Good : String → Prop) (agent : Agent) (input : Input) : Prop :=
  ∀ msg req, input.event = .provision msg →
    (agent.checkProvision env input.now msg).2 = .ok req →
    validateWGPublicKey req.clientKey = false → Good req.clientKey →
    HeldOnce agent.store.members req.memberID req.clientKey

theorem Consistent.step (hClass : KeyClass Good) (h : Consistent env Good agent) {input : Input}
    (hExec : input.CommandsSucceed) (hOnce : RefusedKeyHeldOnce env Good agent input) :
    Consistent env Good (agent.step env input) := by
  have hEffect := step_effect env agent input
  generalize agent.step env input = next at hEffect ⊢
  cases hEffect with
  | quiet nonces live => exact ⟨h.sound, h.keyless, h.indexed, h.records, h.peers⟩
  | unbound msg hEvent c =>
      exact h.extend (c.sound_binding h.sound) (c.keyless_binding h.keyless) c.keeps_binding
  | applied msg hEvent a => exact a.consistent hClass h input.exec
  | provisioned msg hEvent nonces req hPasses =>
      have hSame : Consistent env Good { agent with nonces := nonces } :=
        ⟨h.sound, h.keyless, h.indexed, h.records, h.peers⟩
      obtain ⟨m, hm⟩ := exists_member_of_checkProvision hPasses
      exact hSame.addClientPeer hClass hExec ⟨m, h.indexed.exists_member hm⟩
        (hOnce msg req hEvent hPasses)
  | dropped live hEvent hTrip =>
      have hSame : Consistent env Good { agent with live := live } :=
        ⟨h.sound, h.keyless, h.indexed, h.records, h.peers⟩
      exact hSame.fewerPeers fun key peer hPeer => lookup_foldl_removePeer hPeer

end Tunnel
