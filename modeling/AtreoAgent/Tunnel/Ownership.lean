import AtreoAgent.Acl.TunnelIndex
import AtreoAgent.Machine.Run
import AtreoAgent.Tunnel.OneAddress

/-! Who owns a key and an address. Provisioning a client takes its key and its address
from every other member. A device state is taken over row by row, and two rows may
register one key. -/
namespace Tunnel

open Codec Json Atreolink WireGuard Fallible Acl Machine

variable {env : Env} {now : Time} {agent : Agent} {msg : TunnelMessage}

theorem bindClient_keyless {net : Subnet} {leases : List (String × String)} {a : Allocator}
    {c d : ClientRecord} (h : (bindClient net leases a c).2 = .ok d) (hKey : d.wgPublicKey = "") :
    d = c := by
  rw [(addressed_bindClient h).wgPublicKey] at hKey
  rw [bindClient, if_pos hKey] at h
  exact (Except.ok.inj h).symm

/-- A record without a key has no IPv6 address after an apply. -/
theorem Accepted.keyless_blank (a : Accepted env now agent msg) :
    ∀ n ∈ a.members, ∀ d ∈ n.clients, d.wgPublicKey = "" → d.tunnelIPv6 = "" := by
  have hRows : List.Forall₂ (fun m n : MemberACLEntry => List.Forall₂
      (fun c d : ClientRecord => d.wgPublicKey = "" → d = c) m.clients n.clients) a.entries a.bound := by
    refine walk_results (fun _ m _ n hn => ?_) a.binds
    refine walk_results (fun _ c _ d hd hKey => ?_) (bindMember_eq_ok hn).1
    exact bindClient_keyless hd hKey
  intro n hn d hd hKey
  obtain ⟨m, hm, rfl⟩ := List.mem_map.mp hn
  obtain ⟨c, hc, rfl⟩ := List.mem_map.mp hd
  rw [(addressed_derive env.server c).wgPublicKey] at hKey
  obtain ⟨entry, hEntry, hClients⟩ := exists_left hRows hm
  obtain ⟨e, he, hSame⟩ := exists_left hClients hc
  rw [hSame hKey]
  obtain ⟨hIP, hIPv6⟩ := a.entries_blank entry hEntry e he
  rw [deriveClientIPv6, if_pos hIP, hIPv6]

/-- The records agree with the allocator, and no key is held twice. -/
structure Owned (env : Env) (agent : Agent) : Prop where
  consistent : Consistent env (· ≠ "") agent
  keyless : ∀ m ∈ agent.store.members, ∀ c ∈ m.clients, c.wgPublicKey = "" → c.tunnelIPv6 = ""
  once : OnceAmong (·.wgPublicKey) agent.store.members

namespace Owned

theorem record (h : Owned env agent) {c : ClientRecord}
    (hc : c ∈ agent.store.members.flatMap (·.clients)) :
    Recorded env (· ≠ "") agent.allocator c ∧ (c.wgPublicKey = "" → c.tunnelIPv6 = "") := by
  obtain ⟨m, hm, hcm⟩ := List.mem_flatMap.mp hc
  exact ⟨h.consistent.records m hm c hcm, h.keyless m hm c hcm⟩

theorem once_tunnelIP (h : Owned env agent) : OnceAmong (·.tunnelIP) agent.store.members := by
  refine h.once.imp_of_mem fun {c d} hc hd hKeys hSame => ?_
  dsimp only at hKeys hSame ⊢
  by_contra hIP
  obtain ⟨hcRec, _⟩ := h.record hc
  obtain ⟨hdRec, _⟩ := h.record hd
  have hcKey : c.wgPublicKey ≠ "" := fun hEmpty => hIP (hcRec.1 hEmpty)
  have hdKey : d.wgPublicKey ≠ "" := fun hEmpty => hIP (hSame.trans (hdRec.1 hEmpty))
  exact hcKey (hKeys (h.consistent.sound.injective _ _ _ (hcRec.2 hcKey).1
    (hSame ▸ (hdRec.2 hdKey).1)))

theorem once_tunnelIPv6 (h : Owned env agent) : OnceAmong (·.tunnelIPv6) agent.store.members := by
  refine h.once.imp_of_mem fun {c d} hc hd hKeys hSame => ?_
  dsimp only at hKeys hSame ⊢
  by_contra hIPv6
  obtain ⟨hcRec, hcBlank⟩ := h.record hc
  obtain ⟨hdRec, hdBlank⟩ := h.record hd
  have hcKey : c.wgPublicKey ≠ "" := fun hEmpty => hIPv6 (hcBlank hEmpty)
  have hdKey : d.wgPublicKey ≠ "" := fun hEmpty => hIPv6 (hSame.trans (hdBlank hEmpty))
  obtain ⟨hcBound, hcDerived⟩ := hcRec.2 hcKey
  obtain ⟨hdBound, hdDerived⟩ := hdRec.2 hdKey
  rw [hcDerived, hdDerived] at hSame
  rw [hcDerived] at hIPv6
  have hIP := Server.tunnelIPv6_injective (h.consistent.sound.host _ _ hcBound)
    (h.consistent.sound.host _ _ hdBound) hIPv6 hSame
  exact hcKey (hKeys (h.consistent.sound.injective _ _ _ hcBound (hIP ▸ hdBound)))

/-- No record has as its IPv6 address what is the IPv4 address of another. -/
theorem families_apart (h : Owned env agent) {c d : ClientRecord}
    (hc : c ∈ agent.store.members.flatMap (·.clients))
    (hd : d ∈ agent.store.members.flatMap (·.clients)) (hIP : c.tunnelIP ≠ "") :
    c.tunnelIP ≠ d.tunnelIPv6 := by
  intro hSame
  obtain ⟨hcRec, _⟩ := h.record hc
  obtain ⟨hdRec, hdBlank⟩ := h.record hd
  have hcKey : c.wgPublicKey ≠ "" := fun hEmpty => hIP (hcRec.1 hEmpty)
  have hdKey : d.wgPublicKey ≠ "" := fun hEmpty => hIP (hSame.trans (hdBlank hEmpty))
  have hHost := h.consistent.sound.host _ _ (hcRec.2 hcKey).1
  rw [hSame, (hdRec.2 hdKey).2] at hHost hIP
  exact Server.tunnelIPv6_notMem_hosts env.subnet hIP hHost

/-- Every address of a client resolves to its member. -/
theorem lookupByTunnelIP_eq (h : Owned env agent) {m : MemberACLEntry} (hm : m ∈ agent.store.members)
    {c : ClientRecord} (hc : c ∈ m.clients) {ip : String} (hIP : ip ≠ "") (hHas : HasAddress ip c) :
    agent.store.lookupByTunnelIP ip = some m := by
  refine h.consistent.indexed.lookup_owner hIP hm ⟨c, hc, hHas⟩ fun n hn hOther => ?_
  obtain ⟨d, hd, hdHas⟩ := hOther
  have hcMem : c ∈ agent.store.members.flatMap (·.clients) := List.mem_flatMap.mpr ⟨m, hm, hc⟩
  have hdMem : d ∈ agent.store.members.flatMap (·.clients) := List.mem_flatMap.mpr ⟨n, hn, hd⟩
  rcases hHas with rfl | rfl <;> rcases hdHas with hSame | hSame
  · exact h.once_tunnelIP.row_eq hn hm hd hc hSame (hSame ▸ hIP)
  · exact absurd hSame.symm (h.families_apart hcMem hdMem hIP)
  · exact absurd hSame (h.families_apart hdMem hcMem (hSame ▸ hIP))
  · exact h.once_tunnelIPv6.row_eq hn hm hd hc hSame (hSame ▸ hIP)

end Owned

/-- A provision succeeds. -/
def ProvisionSucceeds (env : Env) (agent : Agent) (input : Input) : Prop :=
  ∀ msg, input.event = .provision msg →
    ∃ response, (agent.handleProvision env input.now input.exec msg).2 = .ok response

/-- A device state that passes its checks registers no key twice, and a provision does not
find its key in a further row of its member. -/
def KeysOnce (env : Env) (agent : Agent) (input : Input) : Prop :=
  (∀ msg st verified, input.event = .deviceState msg → decodeDeviceState env msg = some st →
    agent.checkState env input.now st = .ok (some verified) →
      ((registeredKeys st).filter (· ≠ "")).Nodup) ∧
  ∀ msg req, input.event = .provision msg →
    (agent.checkProvision env input.now msg).2 = .ok req →
      HeldOnce agent.store.members req.memberID req.clientKey

theorem Owned.provision (h : Owned env agent) {exec : List String → Bool}
    {response : ProvisionResponsePayload}
    (hOk : (agent.handleProvision env now exec msg).2 = .ok response)
    (hOnce : ∀ req, (agent.checkProvision env now msg).2 = .ok req →
      HeldOnce agent.store.members req.memberID req.clientKey) :
    Owned env (agent.handleProvision env now exec msg).1 := by
  obtain ⟨req, allocator, ip, store, peers, hPasses, hAllocate, hAdd, hPeer, hNext⟩ :=
    handleProvision_eq_ok hOk
  obtain ⟨nonces, hNonces⟩ := checkProvision_state env now agent msg
  have hInstalled := h.consistent.installed keyClass_nonempty hAllocate hAdd hPeer
  rw [hNext, hNonces]
  refine ⟨⟨hInstalled.sound, hInstalled.keyless, hInstalled.indexed, hInstalled.records,
    hInstalled.peers⟩, fun n hn d hd hKey => ?_, ?_⟩
  · obtain ⟨hReq, _, rfl⟩ := Store.addClient_eq_true hAdd
    obtain ⟨m, hm, _, hClients⟩ := Store.clients_of_rewriteClients hn
    rcases hClients d hd with hOld | hPut
    · exact h.keyless m hm d hOld hKey
    · rcases Store.mem_putClient hPut with hMem | rfl | ⟨_, _, _, rfl⟩
      · exact h.keyless m hm d hMem hKey
      · exact absurd hKey hReq
      · exact absurd hKey hReq
  · exact Store.onceAmong_addClient hAdd h.once (hOnce req hPasses)

theorem Owned.step (h : Owned env agent) {input : Input}
    (hSucceeds : ProvisionSucceeds env agent input) (hOnce : KeysOnce env agent input) :
    Owned env (agent.step env input) := by
  by_cases hProvision : ∃ msg, input.event = .provision msg
  · obtain ⟨msg, hEvent⟩ := hProvision
    obtain ⟨response, hOk⟩ := hSucceeds msg hEvent
    have hNext := h.provision hOk fun req hPasses => hOnce.2 msg req hEvent hPasses
    simpa only [Agent.step, hEvent] using hNext
  · have hEffect := step_effect env agent input
    generalize agent.step env input = next at hEffect ⊢
    cases hEffect with
    | quiet nonces live =>
        have hSame := h.consistent
        exact ⟨⟨hSame.sound, hSame.keyless, hSame.indexed, hSame.records, hSame.peers⟩, h.keyless,
          h.once⟩
    | unbound msg hEvent c =>
        exact ⟨h.consistent.extend (c.sound_binding h.consistent.sound)
          (c.keyless_binding h.consistent.keyless) c.keeps_binding, h.keyless, h.once⟩
    | applied msg hEvent a =>
        refine ⟨a.consistent keyClass_nonempty h.consistent input.exec, ?_, ?_⟩
        · rw [a.result_members]
          exact a.keyless_blank
        · rw [a.result_members, onceAmong_keys_iff, flatMap_heldKeys, a.clientKeys_members]
          exact hOnce.1 msg a.st a.verified hEvent a.decodes a.check_eq
    | provisioned msg hEvent nonces req hPasses => exact absurd ⟨msg, hEvent⟩ hProvision
    | dropped live hEvent hTrip =>
        have hSame : Consistent env (· ≠ "") { agent with live := live } :=
          ⟨h.consistent.sound, h.consistent.keyless, h.consistent.indexed, h.consistent.records,
            h.consistent.peers⟩
        exact ⟨hSame.fewerPeers fun key peer hPeer => lookup_foldl_removePeer hPeer, h.keyless, h.once⟩

/-- In every run from a fresh start whose provisions succeed and whose keys come once, no
key and no address is in two client records, and every address resolves to its owner. -/
theorem no_double_ownership (env : Env) (pin : Option PublicKey) (inputs : List Input)
    (hInputs : Meets (Agent.step env)
      (fun agent input => ProvisionSucceeds env agent input ∧ KeysOnce env agent input)
      (Agent.fresh env pin) inputs) (store : Acl.Store)
    (hStore : store = (run (Agent.step env) (Agent.fresh env pin) inputs).store) :
    OnceAmong (·.wgPublicKey) store.members ∧ OnceAmong (·.tunnelIP) store.members ∧
      OnceAmong (·.tunnelIPv6) store.members ∧
      ∀ m ∈ store.members, ∀ c ∈ m.clients, ∀ ip, ip ≠ "" → HasAddress ip c →
        store.lookupByTunnelIP ip = some m := by
  have hInit : Owned env (Agent.fresh env pin) :=
    ⟨consistent_fresh env _ pin, fun m hm => by simp [Agent.fresh, Store.new] at hm, List.Pairwise.nil⟩
  have hEnd := invariant_run (Owned env) (fun _ _ h hCond => h.step hCond.1 hCond.2) hInit
    hInputs
  subst hStore
  exact ⟨hEnd.once, hEnd.once_tunnelIP, hEnd.once_tunnelIPv6,
    fun m hm c hc ip hIP hHas => hEnd.lookupByTunnelIP_eq hm hc hIP hHas⟩

/-- The store of the owner with two clients, once it has provisioned a third one. -/
def twoClientsStore : Acl.Store :=
  (sampleRun [twoClients] (twoClientsInput :: thirdClient)).store

theorem two_clients_owned_once :
    clientKeys twoClientsStore.members = [sampleWGKey 3, sampleWGKey 4, sampleWGKey 5] ∧
    OnceAmong (·.wgPublicKey) twoClientsStore.members ∧
    OnceAmong (·.tunnelIP) twoClientsStore.members ∧
    OnceAmong (·.tunnelIPv6) twoClientsStore.members ∧
      ∀ m ∈ twoClientsStore.members, ∀ c ∈ m.clients, ∀ ip, ip ≠ "" → HasAddress ip c →
        twoClientsStore.lookupByTunnelIP ip = some m := by
  constructor
  · rw [twoClientsStore, sampleRun, twoClientsInput, run_cons, step_sampleState (reads_head _ _),
      beginState_twoClients]
    decide +kernel
  · refine no_double_ownership (sampleEnv [twoClients]) (some (sampleKey 1))
      (twoClientsInput :: thirdClient) ⟨⟨?_, ?_, ?_⟩, ⟨?_, ?_, ?_⟩, ⟨?_, ?_, ?_⟩, trivial⟩
      twoClientsStore (by rw [twoClientsStore])
    · rintro msg ⟨⟩
    · rintro msg st verified ⟨⟩ hDecode _
      have hState : twoClients = st :=
        Option.some.inj ((decodeDeviceState_sample (reads_head twoClients [])).symm.trans hDecode)
      rw [← hState]
      decide +kernel
    · rintro msg req ⟨⟩
    · rintro msg ⟨⟩
    · rintro msg st verified ⟨⟩
    · rintro msg req ⟨⟩
    · rintro msg ⟨⟩
      rw [twoClientsInput, step_sampleState (reads_head _ _), beginState_twoClients]
      refine exists_ok ?_
      decide +kernel
    · rintro msg st verified ⟨⟩
    · rintro msg req ⟨⟩
      rw [twoClientsInput, step_sampleState (reads_head _ _), beginState_twoClients]
      revert req
      refine forall_ok ?_
      unfold HeldOnce
      decide +kernel

/-- The owner and a member register the same key. -/
def sharedKey : DeviceState :=
  { deviceID := "d", generation := 1
    members := [sampleOwner (sampleKey 1) [sampleWGKey 3], sampleMember (sampleKey 2) [sampleWGKey 3] none]
    apps := [] }

/-- The key and its addresses are in the records of both. -/
theorem shared_key_owned_twice :
    (sampleRun [sharedKey] [.succeeding 0 (.deviceState (sampleState sharedKey))]).store.members.map
        (fun m => (m.memberID, m.clients.map fun c => (c.wgPublicKey, c.tunnelIP, c.tunnelIPv6))) =
      [("a", [(sampleWGKey 3, "100.64.0.2", "fd00::2")]),
        ("b", [(sampleWGKey 3, "100.64.0.2", "fd00::2")])] := by
  have hBegin := beginState_sample [sharedKey] 0 sharedKey
    (sampleAgent (sampleEnv [sharedKey])) rfl rfl (by decide) rfl
    (.cons (verifyMember_sampleOwner ..) (.cons (verifyMember_sampleMember ..) .nil))
  rw [sampleRun, run_cons, step_sampleState (reads_head _ _), hBegin]
  decide +kernel

end Tunnel
