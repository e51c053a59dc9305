import AtreoAgent.Machine.Run
import AtreoAgent.Tunnel.Consistent
import AtreoAgent.Tunnel.Sample

/-! One address per key. In a run the records of the access list, the allocator and the
peers name the same address for a key, different keys have different addresses, and a key
keeps its address as long as it is in the access list. -/
namespace Tunnel

open Codec Json Atreolink WireGuard Machine

variable {env : Env} {agent : Agent}

theorem keyClass_nonempty : KeyClass (· ≠ "") where
  covers := keyClass_valid.nonempty
  nonempty _ hKey := hKey

/-- The addresses of the access list, the allocator and the peers agree. -/
structure OneAddress (env : Env) (agent : Agent) : Prop where
  records : ∀ m ∈ agent.store.members, ∀ c ∈ m.clients, c.wgPublicKey ≠ "" →
    c.tunnelIP = agent.allocator.lookup c.wgPublicKey ∧
      c.tunnelIPv6 = env.server.tunnelIPv6 c.tunnelIP
  peers : ∀ m ∈ agent.store.members, ∀ c ∈ m.clients, ∀ peer,
    agent.peers.lookup c.wgPublicKey = some peer →
      peer.tunnelIP = c.tunnelIP ∧ peer.tunnelIPv6 = c.tunnelIPv6
  distinct : ∀ m ∈ agent.store.members, ∀ c ∈ m.clients, ∀ n ∈ agent.store.members, ∀ d ∈ n.clients,
    c.wgPublicKey ≠ d.wgPublicKey → c.tunnelIP ≠ d.tunnelIP
  /-- The server may have no IPv6 overlay. -/
  distinctIPv6 : ∀ m ∈ agent.store.members, ∀ c ∈ m.clients, ∀ n ∈ agent.store.members,
    ∀ d ∈ n.clients, c.wgPublicKey ≠ "" → d.wgPublicKey ≠ "" → c.wgPublicKey ≠ d.wgPublicKey →
      c.tunnelIPv6 = d.tunnelIPv6 → c.tunnelIPv6 = ""

theorem Consistent.oneAddress (h : Consistent env (· ≠ "") agent) : OneAddress env agent where
  records m hm c hc hKey := by
    obtain ⟨hBound, hIPv6⟩ := (h.records m hm c hc).2 hKey
    exact ⟨by rw [Allocator.lookup, hBound, Option.getD_some], hIPv6⟩
  peers m hm c hc peer hPeer := by
    obtain ⟨hValid, _, ip, hHeld, rfl⟩ := h.peers _ peer hPeer
    obtain ⟨hBound, hIPv6⟩ := (h.records m hm c hc).2 (keyClass_valid.nonempty _ hValid)
    cases hHeld.symm.trans hBound
    exact ⟨rfl, hIPv6.symm⟩
  distinct m hm c hc n hn d hd hNe hSame := by
    have hC := h.records m hm c hc
    have hD := h.records n hn d hd
    by_cases hKey : c.wgPublicKey = ""
    · have hOther : d.wgPublicKey ≠ "" := fun hEmpty => hNe (hKey.trans hEmpty.symm)
      exact h.sound.ne_empty (hD.2 hOther).1 (hSame.symm.trans (hC.1 hKey))
    · by_cases hOther : d.wgPublicKey = ""
      · exact h.sound.ne_empty (hC.2 hKey).1 (hSame.trans (hD.1 hOther))
      · exact hNe (h.sound.injective _ _ _ (hC.2 hKey).1 (hSame ▸ (hD.2 hOther).1))
  distinctIPv6 m hm c hc n hn d hd hKey hOther hNe hSame := by
    obtain ⟨hBound, hIPv6⟩ := (h.records m hm c hc).2 hKey
    obtain ⟨hBoundOther, hIPv6Other⟩ := (h.records n hn d hd).2 hOther
    by_contra hSome
    rw [hIPv6, hIPv6Other] at hSame
    rw [hIPv6] at hSome
    have hIP := Server.tunnelIPv6_injective (h.sound.host _ _ hBound) (h.sound.host _ _ hBoundOther)
      hSome hSame
    exact hNe (h.sound.injective _ _ _ hBound (hIP ▸ hBoundOther))

/-- A provision binds its own key if it is free, or releases it. -/
theorem allocated_addClientPeer (agent : Agent) (h : agent.allocator.Sound env.subnet) (exec : List String → Bool)
    (req : ProvisionRequest) {key ip : String} (hHeld : agent.allocator.allocated.lookup key = some ip) :
    (agent.addClientPeer env exec req).1.allocator.allocated.lookup key = some ip ∨
      (agent.addClientPeer env exec req).1.allocator.allocated.lookup key = none := by
  have hRelease : ∀ {b : Allocator} {address : String},
      agent.allocator.allocate env.subnet req.clientKey = some (b, address) →
      (b.release req.clientKey).allocated.lookup key = some ip ∨
        (b.release req.clientKey).allocated.lookup key = none := by
    intro b address hAllocate
    rw [Allocator.lookup_release]
    split
    · exact Or.inr rfl
    · exact Or.inl ((h.allocate hAllocate).2.2 _ _ hHeld)
  have hCase := addClientPeer_cases env exec agent req
  generalize (agent.addClientPeer env exec req).1 = next at hCase ⊢
  cases hCase with
  | noAddress => exact Or.inl hHeld
  | unknownMember allocator address store hAllocate hAdd => exact hRelease hAllocate
  | peerRefused allocator address store e hAllocate hAdd hPeer => exact hRelease hAllocate
  | installed allocator address store peers hAllocate hAdd hPeer =>
      exact Or.inl ((h.allocate hAllocate).2.2 _ _ hHeld)

/-- A step leaves the address of a key as it is or releases it. -/
theorem allocated_step (h : agent.allocator.Sound env.subnet) (input : Input) {key ip : String}
    (hHeld : agent.allocator.allocated.lookup key = some ip) :
    (agent.step env input).allocator.allocated.lookup key = some ip ∨
      (agent.step env input).allocator.allocated.lookup key = none := by
  have hEffect := step_effect env agent input
  generalize agent.step env input = next at hEffect ⊢
  cases hEffect with
  | quiet nonces live => exact Or.inl hHeld
  | unbound msg hEvent c => exact Or.inl (c.keeps_binding _ _ hHeld)
  | applied msg hEvent a =>
      rw [a.result_allocated]
      split
      · exact Or.inr rfl
      · exact Or.inl (a.keeps_binding _ _ hHeld)
  | provisioned msg hEvent nonces req hPasses =>
      exact allocated_addClientPeer { agent with nonces := nonces } h input.exec req hHeld
  | dropped live hEvent hTrip => exact Or.inl hHeld

theorem Consistent.exists_address (h : Consistent env (· ≠ "") agent) {key : String} (hKey : key ≠ "")
    (hListed : key ∈ Acl.clientKeys agent.store.members) :
    ∃ ip, agent.allocator.allocated.lookup key = some ip := by
  obtain ⟨m, hm, c, hc, rfl⟩ := Acl.mem_clientKeys.mp hListed
  exact ⟨c.tunnelIP, ((h.records m hm c hc).2 hKey).1⟩

/-- A key that is in the access list before and after a step keeps its address. -/
theorem Consistent.same_address {next : Agent} (h : Consistent env (· ≠ "") agent)
    (hNext : Consistent env (· ≠ "") next) {input : Input} (hStep : next = agent.step env input)
    {key : String} (hKey : key ≠ "") (hBefore : key ∈ Acl.clientKeys agent.store.members)
    (hAfter : key ∈ Acl.clientKeys next.store.members) :
    next.allocator.allocated.lookup key = agent.allocator.allocated.lookup key := by
  obtain ⟨ip, hHeld⟩ := h.exists_address hKey hBefore
  obtain ⟨after, hHeldAfter⟩ := hNext.exists_address hKey hAfter
  rcases allocated_step h.sound input hHeld with hKept | hReleased
  · rw [hStep, hKept, hHeld]
  · rw [← hStep, hHeldAfter] at hReleased
    cases hReleased

/-- The commands succeed and no provision of a refused key finds it in a further row of
its member. -/
def AddressSafe (env : Env) (agent : Agent) (input : Input) : Prop :=
  input.CommandsSucceed ∧ RefusedKeyHeldOnce env (· ≠ "") agent input

theorem Consistent.step_addressSafe (h : Consistent env (· ≠ "") agent) {input : Input}
    (hInput : AddressSafe env agent input) : Consistent env (· ≠ "") (agent.step env input) :=
  h.step keyClass_nonempty hInput.1 hInput.2

/-- In every run from a fresh start whose inputs are safe the addresses agree, and a key
that stays in the access list from some point on keeps its address. -/
theorem one_address_per_key (env : Env) (pin : Option PublicKey) (before during : List Input)
    (hInputs : Meets (Agent.step env) (AddressSafe env) (Agent.fresh env pin)
      (before ++ during)) :
    OneAddress env (run (Agent.step env) (Agent.fresh env pin) (before ++ during)) ∧
    ∀ key, key ≠ "" →
      (∀ n ≤ during.length, key ∈ Acl.clientKeys (run (Agent.step env)
        (run (Agent.step env) (Agent.fresh env pin) before) (during.take n)).store.members) →
      ∀ m ∈ (run (Agent.step env) (Agent.fresh env pin) before).store.members,
      ∀ c ∈ m.clients, c.wgPublicKey = key →
      ∀ n ∈ (run (Agent.step env) (Agent.fresh env pin) (before ++ during)).store.members,
      ∀ d ∈ n.clients, d.wgPublicKey = key → d.tunnelIP = c.tunnelIP := by
  have hStep : ∀ agent input, Consistent env (· ≠ "") agent → AddressSafe env agent input →
      Consistent env (· ≠ "") (agent.step env input) := fun _ _ h hInput => h.step_addressSafe hInput
  have hFresh := consistent_fresh env (· ≠ "") pin
  have hEnd := invariant_run _ hStep hFresh hInputs
  refine ⟨hEnd.oneAddress, fun key hKey hStays m hm c hc hcKey n hn d hd hdKey => ?_⟩
  rw [meets_append] at hInputs
  have hMiddle := invariant_run _ hStep hFresh hInputs.1
  rw [run_append] at hn hEnd
  have hSame := constant_while (P := fun agent => key ∈ Acl.clientKeys agent.store.members)
    (f := fun agent => agent.allocator.allocated.lookup key) hStep
    (fun agent input h hInput hBefore hAfter =>
      h.same_address (hStep agent input h hInput) rfl hKey hBefore hAfter) hMiddle hInputs.2 hStays
  subst hcKey
  have hFirst := ((hMiddle.records m hm c hc).2 hKey).1
  have hLast := ((hEnd.records n hn d hd).2 (hdKey ▸ hKey)).1
  rw [hdKey, hSame, hFirst] at hLast
  exact (Option.some.inj hLast).symm

def lateReap : Input := .succeeding 1 (.reap [])

/-- The owner with two clients. -/
def twoClients : DeviceState :=
  { deviceID := "d", generation := 1
    members := [sampleOwner (sampleKey 1) [sampleWGKey 3, sampleWGKey 4]], apps := [] }

def twoClientsInput : Input := .succeeding 0 (.deviceState (sampleState twoClients))

theorem beginState_twoClients :
    (sampleAgent (sampleEnv [twoClients])).beginState (sampleEnv [twoClients]) 0 twoClients =
      (sampleAgent (sampleEnv [twoClients])).install (sampleEnv [twoClients]) 0 1
        ⟨[], [sampleRow (sampleOwner (sampleKey 1) [sampleWGKey 3, sampleWGKey 4]) [] "active"
          [sampleWGKey 3, sampleWGKey 4]]⟩ :=
  beginState_sample _ _ _ _ rfl rfl (by decide) rfl (.cons (verifyMember_sampleOwner ..) .nil)

/-- The owner provisions a third one. -/
def thirdClient : List Input := sampleProvisioning (sampleKey 1) "a" (sampleWGKey 5) 0

theorem two_clients_one_address :
    Acl.clientKeys (sampleRun [twoClients]
      ([twoClientsInput] ++ (thirdClient ++ [lateReap]))).store.members =
        [sampleWGKey 3, sampleWGKey 4, sampleWGKey 5] ∧
    OneAddress (sampleEnv [twoClients]) (sampleRun [twoClients]
      ([twoClientsInput] ++ (thirdClient ++ [lateReap]))) := by
  constructor
  · rw [sampleRun, twoClientsInput, List.singleton_append, run_cons, step_sampleState (reads_head _ _),
      beginState_twoClients]
    decide +kernel
  · refine (one_address_per_key (sampleEnv [twoClients]) (some (sampleKey 1)) [twoClientsInput]
      (thirdClient ++ [lateReap]) ⟨⟨fun _ => rfl, ?_⟩, ⟨fun _ => rfl, ?_⟩, ⟨fun _ => rfl, ?_⟩,
        ⟨fun _ => rfl, ?_⟩, trivial⟩).1
    · rintro msg req ⟨⟩
    · rintro msg req ⟨⟩
    · -- The key of the provision is one that `AddPeer` accepts.
      rintro msg req ⟨⟩
      rw [twoClientsInput, step_sampleState (reads_head _ _), beginState_twoClients]
      revert req
      refine Fallible.forall_ok ?_
      unfold HeldOnce
      decide +kernel
    · rintro msg req ⟨⟩

/-- Two rows of the owner, the second with a key that `AddPeer` refuses. -/
def twoRows : DeviceState :=
  { deviceID := "d", generation := 1
    members := [sampleOwner (sampleKey 1) [], sampleOwner (sampleKey 1) ["k"]], apps := [] }

/-- The owner provisions the key that the second row holds. -/
def refusedProvision : List Input :=
  .succeeding 0 (.deviceState (sampleState twoRows)) :: sampleProvisioning (sampleKey 1) "a" "k" 0

/-- The record keeps the address that the allocator has taken back. -/
theorem refused_provision_frees_address :
    (∃ m ∈ (sampleRun [twoRows] refusedProvision).store.members,
      ∃ c ∈ m.clients, c.wgPublicKey = "k" ∧ c.tunnelIP = "100.64.0.2") ∧
    (sampleRun [twoRows] refusedProvision).allocator.lookup "k" = "" := by
  have hBegin := beginState_sample [twoRows] 0 twoRows
    (sampleAgent (sampleEnv [twoRows])) rfl rfl (by decide) rfl
    (.cons (verifyMember_sampleOwner ..) (.cons (verifyMember_sampleOwner ..) .nil))
  rw [sampleRun, refusedProvision, run_cons, step_sampleState (reads_head _ _), hBegin]
  decide +kernel

end Tunnel
