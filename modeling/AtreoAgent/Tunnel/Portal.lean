import AtreoAgent.Acl.Access
import AtreoAgent.Tunnel.Authorised
import AtreoAgent.Tunnel.StoreChange

/-! The portal page and the firewall. In every store that the agent reaches the port apps
of the members have been validated and a client with an IPv6 address has an IPv4 one, so
that the ports the portal offers to an address are those the firewall opens to it. -/
namespace Tunnel

open Codec Atreolink Acl WireGuard Fallible Machine

variable {env : Env} {now : Time} {agent : Agent} {msg : TunnelMessage}

theorem port_of_validateApp {a : App} (h : validateApp env a = .ok ()) (hPort : a.isPort = true) :
    1 ≤ a.port ∧ a.port ≤ 65535 ∧ a.protocol ∈ ["tcp", "udp", "http", "https"] := by
  rw [validateApp, if_pos hPort] at h
  split at h
  · cases h
  next hRange =>
    split at h
    next hProtocol =>
      rw [not_or, Int.not_lt, Int.not_lt] at hRange
      exact ⟨hRange.1, hRange.2, hProtocol⟩
    · cases h

/-- Every app of an accepted device state has been validated. -/
theorem Accepted.validateApp_ok (a : Accepted env now agent msg) :
    ∀ app ∈ a.verified.apps, validateApp env app = .ok () := by
  obtain ⟨vApps, hApps, hRest⟩ := bind_eq_ok.mp a.verifies
  obtain ⟨vMembers, _, hState⟩ := bind_eq_ok.mp hRest
  rw [← Except.ok.inj hState]
  intro app hApp
  obtain ⟨e, _, h⟩ := exists_of_mem_each hApps hApp
  obtain ⟨p, _, h⟩ := bind_eq_ok.mp h
  obtain ⟨_, _, h⟩ := bind_eq_ok.mp h
  obtain ⟨_, hValid, h⟩ := bind_eq_ok.mp h
  rw [← Except.ok.inj h]
  exact mapError_eq_ok.mp hValid

/-- The apps of a row are among those of the device state. -/
theorem Accepted.row_apps (a : Accepted env now agent msg) {n : MemberACLEntry}
    (hn : n ∈ a.members) : ∀ app ∈ n.allowedApps, app ∈ a.verified.apps := by
  obtain ⟨dm, _, v, ⟨hRow, _⟩, hVerify⟩ := a.exists_verified hn
  obtain ⟨admission, _, _, permitted, _, _, _, _, _, _, hEntry⟩ := verifyMember_eq_ok hVerify
  intro app hApp
  rw [hRow, hEntry] at hApp
  exact mem_allowedApps hApp

theorem bindClient_tunnelIPv6 {net : Subnet} {leases : List (String × String)} {a : Allocator}
    {c d : ClientRecord} (h : (bindClient net leases a c).2 = .ok d) :
    d.tunnelIPv6 = c.tunnelIPv6 := by
  have hCase := bindClient_cases net leases a c
  generalize bindClient net leases a c = bound at hCase h
  cases hCase with
  | exhausted e hKey hNone hFree => cases h
  | _ =>
      cases h
      rfl

/-- An apply derives the IPv6 addresses from the IPv4 ones. -/
theorem Accepted.addressed (a : Accepted env now agent msg) {n : MemberACLEntry}
    (hn : n ∈ a.members) : ∀ d ∈ n.clients, d.tunnelIPv6 ≠ "" → d.tunnelIP ≠ "" := by
  have hRows : List.Forall₂ (fun m n : MemberACLEntry => List.Forall₂
      (fun c d : ClientRecord => d.tunnelIPv6 = c.tunnelIPv6) m.clients n.clients)
      a.entries a.bound := by
    refine walk_results (fun _ m _ n hn => ?_) a.binds
    refine walk_results (fun _ c _ d hd => ?_) (bindMember_eq_ok hn).1
    exact bindClient_tunnelIPv6 hd
  intro d hd hIPv6
  obtain ⟨m, hm, rfl⟩ := List.mem_map.mp hn
  obtain ⟨c, hc, rfl⟩ := List.mem_map.mp hd
  obtain ⟨entry, hEntry, hClients⟩ := exists_left hRows hm
  obtain ⟨e, he, hSame⟩ := exists_left hClients hc
  have hBlank : c.tunnelIPv6 = "" := by rw [hSame, (a.entries_blank entry hEntry e he).2]
  unfold deriveClientIPv6 at hIPv6 ⊢
  split at hIPv6
  · exact absurd hBlank hIPv6
  next hIP =>
    rw [if_neg hIP]
    exact hIP

theorem tunnelIPv6_empty (srv : Server) : srv.tunnelIPv6 "" = "" := by
  have hParse : Net.parseIP "" = none := by decide +kernel
  have hDerive : deriveTunnelIPv6 srv.serverIPv6 "" = none := by
    rw [deriveTunnelIPv6, hParse]
    rfl
  rw [Server.tunnelIPv6, hDerive]
  exact ite_self ""

theorem record_addressed (env : Env) (req : ProvisionRequest) (ip : String)
    (h : (req.record env ip).tunnelIPv6 ≠ "") : ip ≠ "" := by
  rintro rfl
  exact h (tunnelIPv6_empty env.server)

/-- A record filled from one with an IPv4 address has one. -/
theorem fillFrom_addressed {c prev : ClientRecord} (hc : c.tunnelIPv6 ≠ "" → c.tunnelIP ≠ "")
    (hPrev : prev.tunnelIPv6 ≠ "" → prev.tunnelIP ≠ "")
    (h : (ClientRecord.fillFrom c prev true).tunnelIPv6 ≠ "") :
    (ClientRecord.fillFrom c prev true).tunnelIP ≠ "" := by
  dsimp only [ClientRecord.fillFrom] at h ⊢
  by_cases hIP : c.tunnelIP = ""
  · rw [if_pos hIP]
    have hIPv6 : c.tunnelIPv6 = "" := by
      by_contra hSome
      exact hc hSome hIP
    apply hPrev
    simpa [hIPv6] using h
  · rw [if_neg hIP]
    exact hIP

theorem publishable_step {input : Input} (h : agent.store.Publishable) :
    (agent.step env input).store.Publishable := by
  have hChange : StoreChange env agent input (agent.step env input).store :=
    storeChange_step h.coherent
  refine ⟨hChange.coherent h.coherent, fun n hn app hApp hPort => ?_, fun n hn d hd hIPv6 => ?_⟩
  · rcases hChange.exists_row hn with ⟨msg, a, hNew⟩ | ⟨m, hm, hRow⟩
    · exact port_of_validateApp (a.validateApp_ok app (a.row_apps hNew app hApp)) hPort
    · rw [hRow] at hApp
      exact h.ports m hm app hApp hPort
  · rcases hChange.exists_client hn hd with ⟨msg, a, hNew⟩ | ⟨m, hm, hOld⟩ | ⟨req, ip, hClient⟩
    · exact a.addressed hNew d hd hIPv6
    · exact h.addressed m hm d hOld hIPv6
    · rcases hClient with rfl | ⟨m, hm, prev, hPrev, rfl⟩
      · exact record_addressed env req ip hIPv6
      · exact fillFrom_addressed (record_addressed env req ip)
          (h.addressed m hm prev hPrev) hIPv6

/-- No device state has been applied yet: the rows have neither clients nor apps. -/
structure Bare (s : Store) : Prop where
  coherent : s.Coherent
  rows : ∀ m ∈ s.members, m.clients = [] ∧ m.allowedApps = []

theorem Bare.publishable {s : Store} (h : Bare s) : s.Publishable where
  coherent := h.coherent
  ports m hm app hApp := by
    rw [(h.rows m hm).2] at hApp
    cases hApp
  addressed m hm c hc := by
    rw [(h.rows m hm).1] at hc
    cases hc

theorem bare_fresh (env : Env) (pin : Option PublicKey) : Bare (Agent.fresh env pin).store where
  coherent := rfl
  rows m hm := by cases hm

/-- What the portal page says about an address and what the firewall does for it. -/
structure PortalAgrees (lower : Char → Char) (s : Store) : Prop where
  opened : ∀ ip slug a, s.isPortAppAllowed lower ip slug = some a →
    ∃ g ∈ s.portGrants, (g.tunnelIP = ip ∨ g.tunnelIPv6 = ip) ∧
      (a.protocol = "udp" ∧ a.port ∈ g.udp ∨
        a.protocol ∈ ["tcp", "http", "https"] ∧ a.port ∈ g.tcp)
  offeredTCP : ∀ g ∈ s.portGrants, ∀ port ∈ g.tcp, ∀ ip, ip ≠ "" →
    g.tunnelIP = ip ∨ g.tunnelIPv6 = ip → s.Offers lower ip ["tcp", "http", "https"] port
  offeredUDP : ∀ g ∈ s.portGrants, ∀ port ∈ g.udp, ∀ ip, ip ≠ "" →
    g.tunnelIP = ip ∨ g.tunnelIPv6 = ip → s.Offers lower ip ["udp"] port

/-- After any messages, and however letters are lower-cased, the portal and the firewall
agree if no address belongs to two clients. -/
theorem portal_agrees_with_firewall {start : Agent} (hStart : Bare start.store)
    (inputs : List Input) (lower : Char → Char)
    (hOnce : AddressOnce (run (Agent.step env) start inputs).store.members) :
    PortalAgrees lower (run (Agent.step env) start inputs).store := by
  have hEnd : (run (Agent.step env) start inputs).store.Publishable :=
    invariant_always (fun agent : Agent => agent.store.Publishable)
      (fun _ _ h => publishable_step h) hStart.publishable inputs
  refine ⟨fun ip slug a hAllowed => hEnd.exists_grant hAllowed, ?_, ?_⟩
  · intro g hg port hPort ip hIP hHas
    exact hEnd.offers hOnce lower hg hIP hHas (.inl ⟨rfl, hPort⟩)
  · intro g hg port hPort ip hIP hHas
    exact hEnd.offers hOnce lower hg hIP hHas (.inr ⟨rfl, hPort⟩)

/-- A member with a client and an app behind a raw port. -/
def porter : DeviceState :=
  { deviceID := "d", generation := 1
    members := [sampleOwner (sampleKey 1) [], sampleMember (sampleKey 2) [sampleWGKey 3] none]
    apps := [sampleApp (sampleKey 1)] }

def porterEnv : Env := sampleEnv [porter]

def porterAgent : Agent := sampleAgent porterEnv

theorem beginState_porter : porterAgent.beginState porterEnv 0 porter =
    porterAgent.install porterEnv 0 1
      ⟨[webApp], [sampleRow (sampleOwner (sampleKey 1) []) [webApp] "active" [],
        sampleRow (sampleMember (sampleKey 2) [sampleWGKey 3] none) [webApp] "active"
          [sampleWGKey 3]]⟩ :=
  beginState_sample [porter] 0 porter porterAgent rfl (verifyApps_sampleApp ..) (by decide) rfl
    (.cons (verifyMember_sampleOwner ..) (.cons (verifyMember_sampleMember ..) .nil))

/-- The agent once the state is applied. -/
def porterApplied : Agent × DeviceStateResult :=
  completeApply porterEnv (fun _ => true) (porterAgent.beginState porterEnv 0 porter)

def porterInputs : List Input := [.succeeding 0 (.deviceState (sampleState porter))]

theorem step_porter : porterAgent.step porterEnv
    (.succeeding 0 (.deviceState (sampleState porter))) = porterApplied.1 :=
  step_sampleState (reads_head porter []) 0 porterAgent

theorem run_porter (more : List Input) :
    run (Agent.step porterEnv) porterAgent (porterInputs ++ more) =
      run (Agent.step porterEnv) porterApplied.1 more := by
  rw [run_append, porterInputs, run_cons, run_nil, step_porter]

theorem porter_portal_agrees :
    ((run (Agent.step porterEnv) porterAgent porterInputs).store.isPortAppAllowed
        id "100.64.0.2" "web").isSome = true ∧
      AddressOnce (run (Agent.step porterEnv) porterAgent
        porterInputs).store.members ∧
      PortalAgrees id (run (Agent.step porterEnv) porterAgent
        porterInputs).store := by
  have hRun : run (Agent.step porterEnv) porterAgent porterInputs = porterApplied.1 :=
    run_porter []
  have hValues : (porterApplied.1.store.isPortAppAllowed id "100.64.0.2" "web").isSome = true ∧
      (porterApplied.1.store.members.flatMap (·.clients)).length = 1 := by
    rw [porterApplied, beginState_porter]
    decide +kernel
  rw [← hRun] at hValues
  have hOnce : AddressOnce (run (Agent.step porterEnv) porterAgent
      porterInputs).store.members := by
    obtain ⟨c, hc⟩ := List.length_eq_one_iff.mp hValues.2
    rw [AddressOnce, hc]
    exact List.pairwise_singleton _ _
  have hStart : Bare porterAgent.store := bare_fresh porterEnv _
  exact ⟨hValues.1, hOnce, portal_agrees_with_firewall hStart porterInputs id hOnce⟩

end Tunnel
