import AtreoAgent.Machine.Run
import AtreoAgent.Notify.Eligible

/-! A conversation with the mail gateway: the callbacks of a connection one after the other,
with changes of the key in between. A message goes out only if the session has shown the key
of its time, and to the recipient that was set last. -/
namespace Smtp

open Codec Atreolink Notify Machine

/-- The server of a `LOGIN` exchange. -/
structure LoginServer where
  step : Nat := 0
  username : String := ""
  deriving DecidableEq, Repr

/-- What `Next` comes to. -/
inductive LoginServer.Outcome where
  | challenge (text : String)
  /-- The function that `Auth` has passed on is called, and what it returns is returned. -/
  | auth (username password : String)
  /-- `sasl: LOGIN already finished` -/
  | finished
  deriving DecidableEq, Repr

def LoginServer.next (l : LoginServer) (response : String) : LoginServer × LoginServer.Outcome :=
  match l.step with
  | 0 => ({ l with step := 1 }, .challenge "Username:")
  | 1 => ({ step := 2, username := response }, .challenge "Password:")
  | 2 => ({ l with step := 3 }, .auth l.username response)
  | _ => (l, .finished)

/-- The server that `Auth` returns. That of `PLAIN` comes from a library and is known only by its
calls of the function it was given. -/
inductive Exchange where
  | plain
  | login (server : LoginServer)
  deriving DecidableEq, Repr

def Session.auth (mech : String) : Except SMTPError Exchange :=
  if mech = "PLAIN" then .ok .plain
  else if mech = "LOGIN" then .ok (.login {})
  else .error .unknownMechanism

/-- A callback of the session, or a change of the key. -/
inductive Event where
  | setKey (key : String)
  | auth (mech : String)
  /-- The server of `PLAIN` calls its function with the password of the client. -/
  | plain (password : String)
  /-- `Next` of the `LOGIN` server. -/
  | next (response : String)
  | mail (sender : String)
  /-- The access list is the one of that moment. -/
  | rcpt (store : Acl.Store) (address : String)
  | data (raw : Bytes)
  | reset
  | startTLS

structure Conn where
  server : Server
  session : Session := {}
  /-- The exchange that `Auth` has begun on this session. -/
  exchange : Option Exchange := none
  /-- A `MAIL` was accepted since the last reset. -/
  fromReceived : Bool := false

/-- The password that an event hands to `validatePassword`. -/
def Conn.password (c : Conn) : Event → Option String
  | .plain password => if c.exchange = some .plain then some password else none
  | .next response =>
      match c.exchange with
      | some (.login l) =>
          match (l.next response).2 with
          | .auth _ password => some password
          | _ => none
      | _ => none
  | _ => none

section Conversation

variable (env : Env) (cfg : Config)

/-- The member whom mail to the address is for. -/
def resolve (store : Acl.Store) (address : String) : Option MemberACLEntry :=
  match store.lookupByEmail env.notify.lower address with
  | some member => some member
  | none => if cfg.catchAll = "" then none else store.lookupByEmail env.notify.lower cfg.catchAll

/-- The session after a callback, unchanged if it fails. -/
def Conn.keep (c : Conn) (result : Except SMTPError Session) : Conn :=
  { c with session := result.toOption.getD c.session }

def Conn.step (c : Conn) : Event → Conn
  | .setKey key => { c with server := { c.server with apiKey := key } }
  | .auth mech => { c with exchange := (Session.auth mech).toOption }
  | .plain password =>
      if c.exchange = some .plain then c.keep (c.session.validatePassword c.server password) else c
  | .next response =>
      match c.exchange with
      | some (.login l) =>
          let c := { c with exchange := some (.login (l.next response).1) }
          match (l.next response).2 with
          | .auth _ password => c.keep (c.session.validatePassword c.server password)
          | _ => c
      | _ => c
  | .mail sender =>
      { c.keep (c.session.mail sender) with
        fromReceived := c.fromReceived || (c.session.mail sender).isOk }
  | .rcpt store address => c.keep (c.session.rcpt env cfg store address)
  | .data _ => c
  | .reset => { c with session := c.session.reset, fromReceived := false }
  | .startTLS => { c with session := {}, exchange := none, fromReceived := false }

/-- What a message that is handed in sends out. -/
def Conn.sent (c : Conn) (raw : Bytes) : Option Dispatch := (c.session.data env c.server raw).1

/-- `go-smtp` calls `Rcpt` and `Data` only after an accepted `MAIL`. -/
def Conn.InOrder (c : Conn) : Event → Prop
  | .rcpt _ _ => c.fromReceived = true
  | .data _ => c.fromReceived = true
  | _ => True

/-- The session shows the key that the server has. -/
def Conn.Authenticates (c : Conn) (event : Event) : Prop :=
  c.password event = some c.server.apiKey ∧ c.server.apiKey ≠ ""

/-- A recipient is accepted, and it is the given member. -/
def Conn.Accepts (member : MemberACLEntry) (c : Conn) : Event → Prop
  | .rcpt store address =>
      (c.session.rcpt env cfg store address).isOk = true ∧
        resolve env cfg store address = some member
  | _ => False

variable {env cfg}

theorem rcpt_eq_ok {store : Acl.Store} {s t : Session} {address : String}
    (h : s.rcpt env cfg store address = .ok t) :
    s.recipient = none ∧ t.authed = s.authed ∧ t.recipient = resolve env cfg store address ∧
      t.recipient.isSome = true := by
  rw [Session.rcpt] at h
  split at h
  · cases h
  next hNone =>
    rw [Bool.not_eq_true, Option.isSome_eq_false_iff, Option.isNone_iff_eq_none] at hNone
    refine ⟨hNone, ?_⟩
    rw [resolve]
    cases hFound : store.lookupByEmail env.notify.lower address with
    | some member =>
        rw [hFound] at h
        cases h
        exact ⟨rfl, rfl, rfl⟩
    | none =>
        rw [hFound] at h
        dsimp only at h ⊢
        split at h
        · cases h
        next hSome =>
          rw [if_neg hSome]
          split at h
          next member hMember =>
            cases h
            exact ⟨rfl, hMember.symm, rfl⟩
          · cases h

variable (env cfg) in
/-- What an event can do to the session, and to what `go-smtp` remembers of it. -/
inductive Conn.Effect (c : Conn) (event : Event) : Session → Bool → Prop where
  | kept : c.Effect event c.session c.fromReceived
  | authenticated : c.Authenticates event →
      c.Effect event { c.session with authed := true } c.fromReceived
  | mailed (sender : String) : c.session.authed = true →
      c.Effect event { c.session with sender := sender } true
  | accepted {member : MemberACLEntry} {s : Session} : c.Accepts env cfg member event →
      s.authed = c.session.authed → s.recipient = some member → c.Effect event s c.fromReceived
  | reset : event = .reset → c.Effect event c.session.reset false
  | startTLS : event = .startTLS → c.Effect event {} false

variable {c : Conn} {event : Event}

/-- The callback keeps the session as it is, or the password is the key. -/
theorem Conn.effect_password {password : String} (h : c.password event = some password) :
    c.Effect env cfg event
      ((c.session.validatePassword c.server password).toOption.getD c.session) c.fromReceived := by
  rw [Session.validatePassword]
  split
  · exact .kept
  next hKey =>
    rw [not_or, not_not] at hKey
    exact .authenticated ⟨by rw [h, hKey.2], hKey.1⟩

variable (env cfg) in
theorem Conn.effect_step (c : Conn) (event : Event) :
    c.Effect env cfg event (c.step env cfg event).session (c.step env cfg event).fromReceived := by
  cases event with
  | setKey key => exact .kept
  | auth mech => exact .kept
  | plain password =>
      rw [step]
      split
      next hPlain => exact effect_password (by rw [Conn.password, if_pos hPlain])
      · exact .kept
  | next response =>
      rw [step]
      split
      next l hLogin =>
        split
        next username password hNext =>
          exact effect_password (by rw [Conn.password, hLogin]; dsimp only; rw [hNext])
        · exact .kept
      · exact .kept
  | mail sender =>
      rw [step, keep, Session.mail]
      split
      next hAuthed =>
        simp only [Except.isOk, Except.toBool, Bool.or_true]
        exact .mailed sender hAuthed
      · simp only [Except.isOk, Except.toBool, Bool.or_false]
        exact .kept
  | rcpt store address =>
      rw [step, keep]
      cases hRcpt : c.session.rcpt env cfg store address with
      | error e => exact .kept
      | ok s =>
          obtain ⟨_, hAuthed, hResolved, hSome⟩ := rcpt_eq_ok hRcpt
          obtain ⟨member, hMember⟩ := Option.isSome_iff_exists.mp hSome
          refine .accepted ⟨?_, hResolved.symm.trans hMember⟩ hAuthed hMember
          rw [hRcpt]
          rfl
  | data raw => exact .kept
  | reset => exact .reset rfl
  | startTLS => exact .startTLS rfl

/-- A session is authenticated by the key, and stays so until the next one begins. -/
theorem Conn.authed_step (h : (c.step env cfg event).session.authed = true) :
    c.session.authed = true ∨ c.Authenticates event := by
  have hEffect := c.effect_step env cfg event
  generalize (c.step env cfg event).session = s at hEffect h
  generalize (c.step env cfg event).fromReceived = b at hEffect
  cases hEffect with
  | kept => exact .inl h
  | authenticated hKey => exact .inr hKey
  | mailed sender hAuthed => exact .inl hAuthed
  | accepted _ hAuthed _ => exact .inl (hAuthed ▸ h)
  | reset _ => exact .inl h
  | startTLS _ => cases h

/-- A recipient is the one accepted last. -/
theorem Conn.recipient_step {member : MemberACLEntry}
    (h : (c.step env cfg event).session.recipient = some member) :
    c.session.recipient = some member ∨ c.Accepts env cfg member event := by
  have hEffect := c.effect_step env cfg event
  generalize (c.step env cfg event).session = s at hEffect h
  generalize (c.step env cfg event).fromReceived = b at hEffect
  cases hEffect with
  | kept => exact .inl h
  | authenticated _ => exact .inl h
  | mailed _ _ => exact .inl h
  | accepted hAccepts _ hMember =>
      rw [hMember] at h
      cases h
      exact .inr hAccepts
  | reset _ => cases h
  | startTLS _ => cases h

/-- Mail is accepted from an authenticated session only. -/
theorem Conn.mail_authed_step (event : Event)
    (hInv : c.fromReceived = true → c.session.authed = true) :
    (c.step env cfg event).fromReceived = true → (c.step env cfg event).session.authed = true := by
  have hEffect := c.effect_step env cfg event
  generalize (c.step env cfg event).session = s at hEffect
  generalize (c.step env cfg event).fromReceived = b at hEffect
  intro h
  cases hEffect with
  | kept => exact hInv h
  | authenticated _ => rfl
  | mailed _ hAuthed => exact hAuthed
  | accepted _ hAuthed _ => exact hAuthed.trans (hInv h)
  | reset _ => cases h
  | startTLS _ => cases h

/-- No recipient is accepted while one is set. -/
theorem Conn.Accepts.recipient_none {member : MemberACLEntry} (h : c.Accepts env cfg member event) :
    c.session.recipient = none := by
  cases event with
  | rcpt store address =>
      obtain ⟨s, hs⟩ : ∃ s, c.session.rcpt env cfg store address = .ok s := by
        cases hRcpt : c.session.rcpt env cfg store address with
        | ok s => exact ⟨s, rfl⟩
        | error e =>
            rw [Accepts, hRcpt] at h
            cases h.1
      exact (rcpt_eq_ok hs).1
  | _ => cases h

theorem Session.recipient_of_data {server : Server} {s : Session} {raw : Bytes} {d : Dispatch}
    (h : (s.data env server raw).1 = some d) : s.recipient = some d.member := by
  rw [Session.data] at h
  cases hCompose : s.compose env raw with
  | error e =>
      rw [hCompose] at h
      cases h
  | ok composed =>
      obtain ⟨member, req⟩ := composed
      have hMember : s.recipient = some member := by
        rw [compose] at hCompose
        split at hCompose
        · cases hCompose
        next recipient hRecipient =>
          rw [hRecipient]
          split at hCompose
          · cases hCompose
          · split at hCompose
            · cases hCompose
            · split at hCompose
              · cases hCompose
              · cases hCompose
                rfl
      rw [hCompose] at h
      dsimp only at h
      rw [sendToMember] at h
      cases hBuild : buildEnvelope env.notify server member req with
      | error e =>
          rw [hBuild] at h
          cases h
      | ok e =>
          rw [hBuild] at h
          cases h
          exact hMember

variable (env cfg) in
theorem Conn.mail_authed_run (server : Server) (events : List Event) :
    (run (step env cfg) { server := server } events).fromReceived = true →
      (run (step env cfg) { server := server } events).session.authed = true :=
  invariant_always (fun c : Conn => c.fromReceived = true → c.session.authed = true)
    (fun _ event h => mail_authed_step event h) (by simp) events

/-- A message that goes out was handed in on a session that had shown the key the server had
then, and goes to the member who was accepted last as its recipient. Nothing has reset the
session since. -/
theorem message_needs_key_and_recipient (server : Server) {events : List Event}
    (hOrder : Meets (Conn.step env cfg) Conn.InOrder { server := server } events) {n : Nat}
    {raw : Bytes} (hEvent : events[n]? = some (.data raw)) {d : Dispatch}
    (hSent : (run (Conn.step env cfg) { server := server } (events.take n)).sent env raw = some d) :
    (∃ i < n, At (Conn.step env cfg) { server := server } events i Conn.Authenticates ∧
      ∀ k, i < k → k < n → events[k]? ≠ some .startTLS) ∧
    ∃ j < n, At (Conn.step env cfg) { server := server } events j (Conn.Accepts env cfg d.member) ∧
      ∀ k, j < k → k < n → events[k]? ≠ some .reset ∧ events[k]? ≠ some .startTLS ∧
        ∀ member, ¬ At (Conn.step env cfg) { server := server } events k
          (Conn.Accepts env cfg member) := by
  have hAuthed := Conn.mail_authed_run env cfg server (events.take n) (hOrder.getElem hEvent)
  have hRecipient := Session.recipient_of_data hSent
  constructor
  · obtain ⟨i, hi, hAt, hSince⟩ := exists_last_cause
      (P := fun c : Conn => c.session.authed = true) (C := Conn.Authenticates)
      (fun _ _ h => Conn.authed_step h) (by simp) hAuthed
    refine ⟨i, hi, hAt, fun k hLow hHigh hTLS => ?_⟩
    have hAfter := hSince (k + 1) (by omega) (by omega)
    rw [run_take_succ hTLS] at hAfter
    cases hAfter
  · obtain ⟨j, hj, hAt, hSince⟩ := exists_last_cause
      (P := fun c : Conn => c.session.recipient = some d.member)
      (C := Conn.Accepts env cfg d.member) (fun _ _ h => Conn.recipient_step h) (by simp) hRecipient
    refine ⟨j, hj, hAt, fun k hLow hHigh => ⟨?_, ?_, ?_⟩⟩
    · intro hReset
      have hAfter := hSince (k + 1) (by omega) (by omega)
      rw [run_take_succ hReset] at hAfter
      cases hAfter
    · intro hTLS
      have hAfter := hSince (k + 1) (by omega) (by omega)
      rw [run_take_succ hTLS] at hAfter
      cases hAfter
    · rintro member ⟨event, _, hAccepts⟩
      have hNow := hSince k hLow (by omega)
      rw [hAccepts.recipient_none] at hNow
      cases hNow

end Conversation

/-- A session that shows the key and sends one message. The key changes in between. -/
def oneMessage : List Event :=
  [.auth "LOGIN", .next "", .next "app", .next "k", .mail "app@home", .rcpt suspendedStore " b@x",
    .setKey "k2", .data [1]]

/-- The message goes out, and both earlier events are there. -/
theorem one_message_needs_key_and_recipient :
    ∃ d, (run (Conn.step openEnv ⟨""⟩) { server := keyedServer } (oneMessage.take 7)).sent
        openEnv [1] = some d ∧
      (∃ i < 7, At (Conn.step openEnv ⟨""⟩) { server := keyedServer } oneMessage i
        Conn.Authenticates) ∧
      ∃ j < 7, At (Conn.step openEnv ⟨""⟩) { server := keyedServer } oneMessage j
        (Conn.Accepts openEnv ⟨""⟩ d.member) := by
  have hRun : ((run (Conn.step openEnv ⟨""⟩) { server := keyedServer } (oneMessage.take 7)).sent
      openEnv [1]).isSome = true ∧
      (run (Conn.step openEnv ⟨""⟩) { server := keyedServer } (oneMessage.take 5)).fromReceived =
        true ∧
      (run (Conn.step openEnv ⟨""⟩) { server := keyedServer } (oneMessage.take 7)).fromReceived =
        true := by
    decide +kernel
  obtain ⟨hSome, hFirst, hSecond⟩ := hRun
  obtain ⟨d, hSent⟩ := Option.isSome_iff_exists.mp hSome
  have hOrder : Meets (Conn.step openEnv ⟨""⟩) Conn.InOrder { server := keyedServer } oneMessage :=
    ⟨trivial, trivial, trivial, trivial, trivial, hFirst, trivial, hSecond, trivial⟩
  obtain ⟨⟨i, hi, hKey, _⟩, j, hj, hMember, _⟩ :=
    message_needs_key_and_recipient keyedServer hOrder (n := 7) rfl hSent
  exact ⟨d, hSent, ⟨i, hi, hKey⟩, j, hj, hMember⟩

end Smtp
