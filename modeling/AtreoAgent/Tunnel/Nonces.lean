import AtreoAgent.Machine.Run
import AtreoAgent.Tunnel.Cases
import AtreoAgent.Tunnel.Sample

/-! The life of a challenge nonce. The relay chooses the correlation id a nonce is kept
under, and the reaper deletes entries between the messages: it looks at an entry in one
step and deletes what is there in another. -/
namespace Tunnel

open Codec Json Atreolink WireGuard Fallible Machine

variable {env : Env} {now : Time} {agent : Agent} {msg : TunnelMessage}

/-- The agent and the key that its reaper is about to delete. -/
structure Reaping where
  agent : Agent
  doomed : Option String

inductive Turn where
  | handle (input : Input)
  /-- The reaper comes by an entry. -/
  | visit (now : Time) (key : String)
  | delete

namespace Reaping

def step (env : Env) (s : Reaping) : Turn → Reaping
  | .handle input => { s with agent := s.agent.step env input }
  | .visit now key =>
      match s.agent.nonces.lookup key with
      | some entry =>
          if entry.createdAt < now - shortLivedTTL then { s with doomed := some key } else s
      | none => s
  | .delete =>
      match s.doomed with
      | some key =>
          { agent := { s.agent with nonces := s.agent.nonces.erase key }, doomed := none }
      | none => s

/-- A process starts without nonces. -/
def start (agent : Agent) : Reaping := ⟨{ agent with nonces := ∅ }, none⟩

end Reaping

/-- The turn answers a challenge of the member with the nonce. -/
def Answers (env : Env) (memberID nonce : String) (now : Time) (s : Reaping) (turn : Turn) : Prop :=
  ∃ exec random msg p, turn = .handle ⟨now, exec, .challenge random msg⟩ ∧
    ChallengePayload.unmarshal msg.payload = some p ∧ p.member = memberID ∧
    (s.agent.handleChallenge env now random msg).2 = .ok nonce

/-- The turn provisions a client of the member. -/
def Provisions (env : Env) (memberID nonce : String) (now : Time) (s : Reaping) (turn : Turn) :
    Prop :=
  ∃ exec msg req response, turn = .handle ⟨now, exec, .provision msg⟩ ∧
    (s.agent.checkProvision env now msg).2 = .ok req ∧ req.memberID = memberID ∧
    req.nonce = nonce ∧ (s.agent.handleProvision env now exec msg).2 = .ok response

/-- The message of the turn is signed by the member. -/
def Turn.SignedBy (env : Env) (memberID : String) (s : Reaping) : Turn → Prop
  | .handle ⟨_, _, .challenge _ msg⟩ => SignedByMember env s.agent.store msg memberID
  | .handle ⟨_, _, .provision msg⟩ => SignedByMember env s.agent.store msg memberID
  | _ => False

/-- The turn names the nonce of an entry of the member, and the entry is gone after it. -/
def Consumes (env : Env) (memberID nonce : String) (s : Reaping) (turn : Turn) : Prop :=
  ∃ input msg p entry, turn = .handle input ∧ input.event = .provision msg ∧
    ProvisionPayload.unmarshal msg.payload = some p ∧ p.nonce = nonce ∧
    s.agent.nonces.lookup (p.nonceKey msg.correlationID) = some entry ∧
    entry.nonce = nonce ∧ entry.memberID = memberID ∧
    (s.step env turn).agent.nonces.lookup (p.nonceKey msg.correlationID) = none

@[simp] theorem perform_nonces (env : Env) (exec : List String → Bool) (agent : Agent)
    (op : PeerOp) : (agent.perform env exec op).nonces = agent.nonces := by
  cases op with
  | prune key => rfl
  | drop key => rfl
  | install key ip =>
      rw [Agent.perform]
      split <;> rfl

@[simp] theorem foldl_perform_nonces (env : Env) (exec : List String → Bool) (ops : List PeerOp)
    (agent : Agent) : (ops.foldl (Agent.perform env exec) agent).nonces = agent.nonces := by
  induction ops generalizing agent with
  | nil => rfl
  | cons op ops ih => rw [List.foldl_cons, ih, perform_nonces]

theorem handleDeviceState_nonces (env : Env) (now : Time) (exec : List String → Bool)
    (agent : Agent) (msg : TunnelMessage) :
    (agent.handleDeviceState env now exec msg).1.nonces = agent.nonces := by
  rcases handleDeviceState_cases env now exec agent msg with
    ⟨r, hr, _⟩ | ⟨c, e, hr, _⟩ | ⟨a, hr⟩ <;> rw [hr]
  exact foldl_perform_nonces env exec _ a.replaced

theorem addClientPeer_nonces (env : Env) (exec : List String → Bool) (agent : Agent)
    (req : ProvisionRequest) : (agent.addClientPeer env exec req).1.nonces = agent.nonces := by
  have hCase := addClientPeer_cases env exec agent req
  generalize (agent.addClientPeer env exec req).1 = next at hCase ⊢
  cases hCase <;> rfl

/-- Only the checks of a provision touch the nonces. -/
theorem handleProvision_nonces (env : Env) (now : Time) (exec : List String → Bool) (agent : Agent)
    (msg : TunnelMessage) :
    (agent.handleProvision env now exec msg).1.nonces =
      (agent.checkProvision env now msg).1.nonces := by
  unfold Agent.handleProvision
  rcases agent.checkProvision env now msg with ⟨checked, e | req⟩
  · rfl
  · have hSame := addClientPeer_nonces env exec checked req
    dsimp only
    rcases hAdded : checked.addClientPeer env exec req with ⟨added, e | ip⟩ <;> rw [hAdded] at hSame <;>
      exact hSame

variable {key memberID nonce : String} {entry : NonceEntry} {turns : List Turn}

/-- An entry that is there after an erase was there before it. -/
theorem lookup_of_erase {nonces : StringMap NonceEntry} {other : String}
    (h : (nonces.erase other).lookup key = some entry) : nonces.lookup key = some entry := by
  by_cases hKey : key = other
  · subst hKey
    cases (Finmap.lookup_erase _ _).symm.trans h
  · rwa [Finmap.lookup_erase_ne hKey] at h

theorem lookup_of_checkProvision
    (h : (agent.checkProvision env now msg).1.nonces.lookup key = some entry) :
    agent.nonces.lookup key = some entry := by
  unfold Agent.checkProvision at h
  split at h
  · exact h
  · split at h
    · exact h
    · dsimp only at h
      split at h
      · exact h
      · exact lookup_of_erase h

theorem lookup_of_reapNonces {visited : List String}
    (h : (agent.reapNonces now visited).nonces.lookup key = some entry) :
    agent.nonces.lookup key = some entry := by
  refine List.foldlRecOn (motive := fun nonces : StringMap NonceEntry =>
    nonces.lookup key = some entry → agent.nonces.lookup key = some entry) visited _
    (fun h => h) (fun nonces ih k _ hNext => ih ?_) h
  split at hNext
  · split at hNext
    · exact lookup_of_erase hNext
    · exact hNext
  · exact hNext

/-- The turn stores the entry under the key: it answers a challenge that the member of
the entry has signed. -/
def Issues (env : Env) (s : Reaping) (turn : Turn) (issued : String × NonceEntry) : Prop :=
  (∃ now exec random msg, turn = .handle ⟨now, exec, .challenge random msg⟩ ∧
    msg.correlationID = issued.1) ∧
  Answers env issued.2.memberID issued.2.nonce issued.2.createdAt s turn ∧
  turn.SignedBy env issued.2.memberID s

/-- An entry after a challenge was there before, or the challenge issued it. -/
theorem issued_of_handleChallenge {random : Option String} {exec : List String → Bool}
    {doomed : Option String}
    (h : (agent.handleChallenge env now random msg).1.nonces.lookup key = some entry) :
    agent.nonces.lookup key = some entry ∨
      Issues env ⟨agent, doomed⟩ (.handle ⟨now, exec, .challenge random msg⟩) (key, entry) := by
  rcases hAnswer : agent.handleChallenge env now random msg with ⟨next, answer⟩
  rw [hAnswer] at h
  have hHandle := hAnswer
  unfold Agent.handleChallenge at hAnswer
  split at hAnswer
  · cases hAnswer
    exact Or.inl h
  next p hPayload =>
    split at hAnswer
    · cases hAnswer
      exact Or.inl h
    next hVerify =>
      split at hAnswer
      · cases hAnswer
        exact Or.inl h
      next nonce =>
        cases hAnswer
        by_cases hKey : key = msg.correlationID
        · subst hKey
          cases (Finmap.lookup_insert _).symm.trans h
          exact Or.inr ⟨⟨now, exec, some nonce, msg, rfl, rfl⟩,
            ⟨exec, some nonce, msg, p, rfl, hPayload, rfl, congrArg Prod.snd hHandle⟩,
            signedByMember_of_verifyCommand hVerify⟩
        · exact Or.inl ((Finmap.lookup_insert_of_ne _ hKey).symm.trans h)

/-- An entry after a turn was there before, or the turn issued it. -/
theorem issued_of_step (s : Reaping) (turn : Turn) (issued : String × NonceEntry)
    (h : (s.step env turn).agent.nonces.lookup issued.1 = some issued.2) :
    s.agent.nonces.lookup issued.1 = some issued.2 ∨ Issues env s turn issued := by
  cases turn with
  | handle input =>
      obtain ⟨now, exec, event⟩ := input
      cases event with
      | deviceState msg =>
          exact Or.inl (handleDeviceState_nonces env now exec s.agent msg ▸ h)
      | challenge random msg => exact issued_of_handleChallenge h
      | provision msg =>
          exact Or.inl (lookup_of_checkProvision (handleProvision_nonces env now exec s.agent msg ▸ h))
      | heartbeatAck msg =>
          obtain ⟨live, hState⟩ := handleHeartbeatAck_state now s.agent msg
          have hSame : (s.agent.handleHeartbeatAck now msg).1.nonces = s.agent.nonces := by rw [hState]
          exact Or.inl (hSame ▸ h)
      | other msg => exact Or.inl h
      | livenessTick =>
          have hSame : (s.agent.checkLiveness now).nonces = s.agent.nonces := by
            unfold Agent.checkLiveness
            dsimp only
            split <;> rfl
          exact Or.inl (hSame ▸ h)
      | reap visited => exact Or.inl (lookup_of_reapNonces h)
  | visit now key =>
      refine Or.inl ?_
      dsimp only [Reaping.step] at h
      split at h
      · split at h <;> exact h
      · exact h
  | delete =>
      refine Or.inl ?_
      dsimp only [Reaping.step] at h
      split at h
      · exact lookup_of_erase h
      · exact h

/-- A provision consumes a nonce that it names and that is not too old. -/
theorem consumes_of_provisions {s : Reaping} {turn : Turn}
    (h : Provisions env memberID nonce now s turn) :
    turn.SignedBy env memberID s ∧
    ∃ key entry, s.agent.nonces.lookup key = some entry ∧
      entry.memberID = memberID ∧ entry.nonce = nonce ∧
      now - entry.createdAt ≤ shortLivedTTL ∧
      (s.step env turn).agent.nonces = s.agent.nonces.erase key ∧
      Consumes env memberID nonce s turn := by
  obtain ⟨exec, msg, req, response, rfl, hCheck, rfl, rfl, _⟩ := h
  obtain ⟨p, entry, hPayload, hEntry, hNonce, hState⟩ := checkProvision_eq_ok hCheck
  obtain ⟨hFresh, hNamed, hSigned, hMember, hIssued⟩ := checkNonce_eq_ok hNonce
  have hAfter : (s.step env (.handle ⟨now, exec, .provision msg⟩)).agent.nonces =
      s.agent.nonces.erase (p.nonceKey msg.correlationID) := by
    change (s.agent.handleProvision env now exec msg).1.nonces = _
    rw [handleProvision_nonces, hState]
  have hConsumed : (s.step env (.handle ⟨now, exec, .provision msg⟩)).agent.nonces.lookup
      (p.nonceKey msg.correlationID) = none := by
    rw [hAfter, Finmap.lookup_erase]
  rw [hMember, hIssued]
  exact ⟨hSigned, _, entry, hEntry, rfl, rfl, hFresh, hAfter,
    _, msg, p, entry, rfl, rfl, hPayload, hNamed, hEntry, rfl, rfl, hConsumed⟩

/-- An entry that a later turn finds was issued since an earlier point that does not
have it. -/
theorem exists_issue (issued : String × NonceEntry) {m k : Nat}
    (hLater : (run (Reaping.step env) (.start agent) (turns.take k)).agent.nonces.lookup
      issued.1 = some issued.2)
    (hEarlier : (run (Reaping.step env) (.start agent) (turns.take m)).agent.nonces.lookup
      issued.1 ≠ some issued.2) (hLe : m ≤ k) :
    ∃ n, m ≤ n ∧ n < k ∧ At (Reaping.step env) (.start agent) turns n
      fun s turn => Issues env s turn issued :=
  exists_cause
    (P := fun (s : Reaping) (issued : String × NonceEntry) =>
      s.agent.nonces.lookup issued.1 = some issued.2)
    (fun s turn issued => issued_of_step s turn issued) hLater hEarlier hLe

/-- A successful provision is the second half of a challenge of its member. -/
theorem exists_challenge {j : Nat}
    (h : At (Reaping.step env) (.start agent) turns j (Provisions env memberID nonce now)) :
    ∃ i key entry, i < j ∧
      (run (Reaping.step env) (.start agent) (turns.take j)).agent.nonces.lookup key =
        some entry ∧
      (run (Reaping.step env) (.start agent) (turns.take (j + 1))).agent.nonces =
        (run (Reaping.step env) (.start agent) (turns.take j)).agent.nonces.erase key ∧
      entry.memberID = memberID ∧ entry.nonce = nonce ∧ now - entry.createdAt ≤ shortLivedTTL ∧
      At (Reaping.step env) (.start agent) turns i
        fun s turn => Issues env s turn (key, entry) := by
  obtain ⟨turn, hTurn, hProvisions⟩ := h
  obtain ⟨_, key, entry, hEntry, hMember, hNonce, hFresh, hAfter, _⟩ :=
    consumes_of_provisions hProvisions
  obtain ⟨i, _, hBefore, hIssue⟩ := exists_issue (key, entry) (m := 0) hEntry
    (by rw [List.take_zero]; simp [Reaping.start]) (Nat.zero_le j)
  exact ⟨i, key, entry, hBefore, hEntry, by rw [run_take_succ hTurn, hAfter], hMember, hNonce,
    hFresh, hIssue⟩

/-- The random source never repeats a nonce in the run. -/
def NeverRepeats (env : Env) (agent : Agent) (turns : List Turn) : Prop :=
  ∀ i j memberID other nonce now later,
    At (Reaping.step env) (.start agent) turns i (Answers env memberID nonce now) →
    At (Reaping.step env) (.start agent) turns j (Answers env other nonce later) → i = j

theorem provisions_not_lt (hRandom : NeverRepeats env agent turns) {i j : Nat} {other : String}
    {later : Time}
    (hFirst : At (Reaping.step env) (.start agent) turns i
      (Provisions env memberID nonce now))
    (hSecond : At (Reaping.step env) (.start agent) turns j
      (Provisions env other nonce later)) : ¬ i < j := by
  intro hLt
  have hProvision := hFirst
  obtain ⟨i₁, key₁, entry₁, hBefore₁, _, hErased, _, hNonce₁, _, hIssue₁⟩ := exists_challenge hFirst
  obtain ⟨i₂, key₂, entry₂, hBefore₂, hEntry₂, _, _, hNonce₂, _, hIssue₂⟩ := exists_challenge hSecond
  obtain ⟨turn₁, hTurn₁, hKey₁, hAnswers₁, _⟩ := hIssue₁
  -- Either the second entry was issued after the first was consumed, or both were there.
  by_cases hHeld : (run (Reaping.step env) (.start agent) (turns.take (i + 1))).agent.nonces.lookup
      key₂ = some entry₂
  · have hApart : key₂ ≠ key₁ := by
      rintro rfl
      rw [hErased, Finmap.lookup_erase] at hHeld
      cases hHeld
    obtain ⟨turn₂, hTurn₂, hKey₂, hAnswers₂, _⟩ := hIssue₂
    have hSame : i₁ = i₂ := hRandom i₁ i₂ _ _ nonce _ _ ⟨turn₁, hTurn₁, hNonce₁ ▸ hAnswers₁⟩
      ⟨turn₂, hTurn₂, hNonce₂ ▸ hAnswers₂⟩
    subst hSame
    cases hTurn₁.symm.trans hTurn₂
    obtain ⟨_, _, _, _, rfl, hCorrelation₁⟩ := hKey₁
    obtain ⟨_, _, _, _, hEq, hCorrelation₂⟩ := hKey₂
    cases hEq
    exact hApart (hCorrelation₂.symm.trans hCorrelation₁)
  · obtain ⟨i₃, hLow, _, turn₃, hTurn₃, _, hAnswers₃, _⟩ :=
      exists_issue (key₂, entry₂) hEntry₂ hHeld hLt
    have hSame : i₁ = i₃ := hRandom i₁ i₃ _ _ nonce _ _ ⟨turn₁, hTurn₁, hNonce₁ ▸ hAnswers₁⟩
      ⟨turn₃, hTurn₃, hNonce₂ ▸ hAnswers₃⟩
    omega

/-- A successful provision consumes a nonce that a challenge of its member was answered
with no more than five minutes before, both signed by the member when handled; no nonce
leads to two of them. -/
theorem nonce_authorises_once (env : Env) (agent : Agent) (turns : List Turn) :
    (∀ j memberID nonce now,
      At (Reaping.step env) (.start agent) turns j (Provisions env memberID nonce now) →
      At (Reaping.step env) (.start agent) turns j (fun s turn =>
        turn.SignedBy env memberID s ∧ Consumes env memberID nonce s turn) ∧
      ∃ i issued, i < j ∧ now - issued ≤ shortLivedTTL ∧
        At (Reaping.step env) (.start agent) turns i (fun s turn =>
          turn.SignedBy env memberID s ∧ Answers env memberID nonce issued s turn)) ∧
    (NeverRepeats env agent turns → ∀ i j memberID other nonce now later,
      At (Reaping.step env) (.start agent) turns i (Provisions env memberID nonce now) →
      At (Reaping.step env) (.start agent) turns j (Provisions env other nonce later) →
      i = j) := by
  constructor
  · intro j memberID nonce now hProvision
    obtain ⟨i, key, entry, hBefore, _, _, rfl, rfl, hFresh, turn, hTurn, _, hAnswers, hSigned⟩ :=
      exists_challenge hProvision
    obtain ⟨provision, hAt, hProvisions⟩ := hProvision
    obtain ⟨hProvisionSigned, _, _, _, _, _, _, _, hConsumes⟩ := consumes_of_provisions hProvisions
    exact ⟨⟨provision, hAt, hProvisionSigned, hConsumes⟩, i, entry.createdAt, hBefore, hFresh, turn,
      hTurn, hSigned, hAnswers⟩
  · intro hRandom i j memberID other nonce now later hFirst hSecond
    have hNotLt := provisions_not_lt hRandom hFirst hSecond
    have hNotGt := provisions_not_lt hRandom hSecond hFirst
    omega

def hexProvision : TunnelMessage := sampleProvision (sampleKey 1) "a" 0

def ownerProvision : List Turn :=
  [.handle (.succeeding 0 (.challenge (some "00")
      (sampleChallenge (sampleKey 1) "a" (sampleWGKey 3) 0))),
    .handle (.succeeding 1 (.provision hexProvision))]

theorem owner_provision_authorised_once :
    At (Reaping.step (sampleEnv [])) (.start ownerAgent) ownerProvision 1
      (Provisions (sampleEnv []) "a" "00" 1) ∧
    (∃ i issued, i < 1 ∧ 1 - issued ≤ shortLivedTTL ∧
      At (Reaping.step (sampleEnv [])) (.start ownerAgent) ownerProvision i (fun s turn =>
        turn.SignedBy (sampleEnv []) "a" s ∧ Answers (sampleEnv []) "a" "00" issued s turn)) ∧
    ∀ j memberID now, At (Reaping.step (sampleEnv [])) (.start ownerAgent) ownerProvision j
      (Provisions (sampleEnv []) memberID "00" now) → 1 = j := by
  have hProvision : At (Reaping.step (sampleEnv [])) (.start ownerAgent) ownerProvision 1
      (Provisions (sampleEnv []) "a" "00" 1) := by
    have hValues : ((run (Reaping.step (sampleEnv [])) (.start ownerAgent)
          (ownerProvision.take 1)).agent.checkProvision (sampleEnv []) 1 hexProvision).2.toOption =
            some ⟨"a", sampleWGKey 3, "00"⟩ ∧
        ((run (Reaping.step (sampleEnv [])) (.start ownerAgent)
          (ownerProvision.take 1)).agent.handleProvision (sampleEnv []) 1 (fun _ => true)
            hexProvision).2.toOption.isSome = true := by
      decide +kernel
    obtain ⟨hCheck, hHandle⟩ := hValues
    obtain ⟨response, hResponse⟩ := Option.isSome_iff_exists.mp hHandle
    exact ⟨_, rfl, fun _ => true, hexProvision, _, response, rfl, toOption_eq_some.mp hCheck, rfl, rfl,
      toOption_eq_some.mp hResponse⟩
  have hRandom : NeverRepeats (sampleEnv []) ownerAgent ownerProvision := by
    have hFirst : ∀ i memberID nonce now, At (Reaping.step (sampleEnv [])) (.start ownerAgent)
        ownerProvision i (Answers (sampleEnv []) memberID nonce now) → i = 0 := by
      intro i memberID nonce now hAt
      obtain ⟨turn, s, hTurn, exec, random, msg, p, rfl, _⟩ := hAt.exists_state
      match i with
      | 0 => rfl
      | 1 => cases hTurn
      | i + 2 => cases hTurn
    intro i j memberID other nonce now later hi hj
    rw [hFirst i _ _ _ hi, hFirst j _ _ _ hj]
  have hOnce := nonce_authorises_once (sampleEnv []) ownerAgent ownerProvision
  exact ⟨hProvision, (hOnce.1 1 "a" "00" 1 hProvision).2, fun j memberID now hj =>
    hOnce.2 hRandom 1 j "a" memberID "00" 1 now hProvision hj⟩

end Tunnel
