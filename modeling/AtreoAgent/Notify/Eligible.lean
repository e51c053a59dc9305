import AtreoAgent.Smtp.Session

/-! Who is notified. The server lists the members that are active and have an identity
key. Sending asks for the key but not for the status, so a suspended member that is
addressed is notified if the notification can be sealed to its key. -/
namespace Notify

open Codec Json Atreolink Acl Fallible

/-- The ways a notification comes about. -/
inductive Request where
  | http (authorization : String) (body : Bytes)
  | smtp (password sender address : String) (raw : Bytes)
  | broadcast (title : String) (body : Bytes) (severity : String)

section

variable (env : Smtp.Env) (cfg : Smtp.Config) (server : Server) (store : Acl.Store)

/-- What is handed over for a request. -/
def dispatched : Request → List Dispatch
  | .http authorization body => (handleNotify env.notify server store authorization body).1.toList
  | .smtp password sender address raw =>
      (Smtp.receive env cfg server store password sender address raw).1.toList
  | .broadcast title body severity => (sendToAll env.notify server store title body severity).1

/-- Whom a request is for, with what is to be sent. -/
def addressed : Request → List (MemberACLEntry × NotifyRequest)
  | .http authorization body =>
      (readNotify env.notify server store authorization body).toOption.toList
  | .smtp password sender address raw =>
      ((Smtp.openMessage env cfg server store password sender address).bind
        (Smtp.Session.compose env · raw)).toOption.toList
  | .broadcast title body severity => store.members.map fun m => (m, alert title body severity)

end

variable {env : Smtp.Env} {cfg : Smtp.Config} {server : Server} {store : Acl.Store}

theorem dispatch_sendToMember (env : Env) (server : Server) (member : MemberACLEntry)
    (req : NotifyRequest) :
    (sendToMember env server member req).1 =
      (buildEnvelope env server member req).toOption.map fun e => ⟨member, e⟩ := by
  unfold sendToMember
  cases buildEnvelope env server member req with
  | error e => rfl
  | ok e => rfl

theorem dispatch_handleNotify (env : Env) (server : Server) (store : Acl.Store)
    (authorization : String) (body : Bytes) :
    (handleNotify env server store authorization body).1 =
      (readNotify env server store authorization body).toOption.bind fun call =>
        (sendToMember env server call.1 call.2).1 := by
  unfold handleNotify
  cases readNotify env server store authorization body with
  | error answer => rfl
  | ok call => rfl

theorem dispatch_receive (env : Smtp.Env) (cfg : Smtp.Config) (server : Server)
    (store : Acl.Store) (password sender address : String) (raw : Bytes) :
    (Smtp.receive env cfg server store password sender address raw).1 =
      ((Smtp.openMessage env cfg server store password sender address).bind
        (Smtp.Session.compose env · raw)).toOption.bind fun call =>
          (sendToMember env.notify server call.1 call.2).1 := by
  unfold Smtp.receive
  cases Smtp.openMessage env cfg server store password sender address with
  | error e => rfl
  | ok s =>
      dsimp only [Except.bind]
      unfold Smtp.Session.data
      cases s.compose env raw with
      | error e => rfl
      | ok call => rfl

/-- A request hands over what can be sealed to those it is for. -/
theorem dispatched_eq (request : Request) :
    dispatched env cfg server store request =
      (addressed env cfg server store request).filterMap fun call =>
        (buildEnvelope env.notify server call.1 call.2).toOption.map fun e => ⟨call.1, e⟩ := by
  have hOption : ∀ (call : Option (MemberACLEntry × NotifyRequest)),
      (call.bind fun c => (sendToMember env.notify server c.1 c.2).1).toList =
        call.toList.filterMap fun c => (sendToMember env.notify server c.1 c.2).1 := by
    intro call
    cases call with
    | none => rfl
    | some c => cases h : (sendToMember env.notify server c.1 c.2).1 <;> simp [h]
  simp only [← dispatch_sendToMember]
  cases request with
  | http authorization body =>
      rw [dispatched, addressed, dispatch_handleNotify]
      exact hOption _
  | smtp password sender address raw =>
      rw [dispatched, addressed, dispatch_receive]
      exact hOption _
  | broadcast title body severity =>
      rw [dispatched, addressed, sendToAll, List.filterMap_map, List.filterMap_map]
      rfl

variable {m : MemberACLEntry} {call : MemberACLEntry × NotifyRequest}

theorem mem_members_of_lookupByEmail {lower : Char → Char} {email : String}
    (h : store.lookupByEmail lower email = some m) : m ∈ store.members := by
  obtain ⟨i, _, hi⟩ := Option.bind_eq_some_iff.mp h
  exact List.mem_of_getElem? hi

theorem mem_members_of_resolveMember {lower : Char → Char} {userID userEmail : String}
    (h : resolveMember lower store userID userEmail = .ok m) : m ∈ store.members := by
  unfold resolveMember at h
  split at h
  · exact List.mem_of_find?_eq_some (require_eq_ok.mp h)
  · exact mem_members_of_lookupByEmail (require_eq_ok.mp h)

theorem mem_members_of_readNotify {env : Env} {authorization : String} {body : Bytes}
    (h : readNotify env server store authorization body = .ok call) : call.1 ∈ store.members := by
  obtain ⟨_, _, h⟩ := bind_eq_ok.mp h
  obtain ⟨_, _, h⟩ := bind_eq_ok.mp h
  obtain ⟨_, _, h⟩ := bind_eq_ok.mp h
  obtain ⟨_, _, h⟩ := bind_eq_ok.mp h
  obtain ⟨member, hResolve, h⟩ := bind_eq_ok.mp h
  cases h
  exact mem_members_of_resolveMember (mapError_eq_ok.mp hResolve)

/-- The recipient of a message is found by its address or by the catch-all. -/
theorem mem_members_of_openMessage {password sender address : String} {s : Smtp.Session}
    (h : Smtp.openMessage env cfg server store password sender address = .ok s)
    (hRecipient : s.recipient = some m) : m ∈ store.members := by
  obtain ⟨_, _, h⟩ := bind_eq_ok.mp h
  obtain ⟨_, _, h⟩ := bind_eq_ok.mp h
  unfold Smtp.Session.rcpt at h
  split at h
  · cases h
  · split at h
    next hDirect =>
      cases h
      cases hRecipient
      exact mem_members_of_lookupByEmail hDirect
    · split at h
      · cases h
      · split at h
        next hCatchAll =>
          cases h
          cases hRecipient
          exact mem_members_of_lookupByEmail hCatchAll
        · cases h

theorem recipient_of_compose {s : Smtp.Session} {raw : Bytes} (h : s.compose env raw = .ok call) :
    s.recipient = some call.1 := by
  unfold Smtp.Session.compose at h
  split at h
  · cases h
  next member hRecipient =>
    rw [hRecipient]
    split at h
    · cases h
    · split at h
      · cases h
      · split at h
        · cases h
        · cases h
          rfl

/-- Whom a request is for is a row of the access list. -/
theorem mem_members_of_addressed {request : Request}
    (h : call ∈ addressed env cfg server store request) : call.1 ∈ store.members := by
  cases request with
  | http authorization body =>
      rw [addressed, Option.mem_toList, toOption_eq_some] at h
      exact mem_members_of_readNotify h
  | smtp password sender address raw =>
      rw [addressed, Option.mem_toList, toOption_eq_some] at h
      obtain ⟨s, hOpen, hCompose⟩ := bind_eq_ok.mp h
      exact mem_members_of_openMessage hOpen (recipient_of_compose hCompose)
  | broadcast title body severity =>
      obtain ⟨m, hm, rfl⟩ := List.mem_map.mp h
      exact hm

/-- Nothing can be sealed to a member without a key. -/
theorem identityKey_of_buildEnvelope {env : Env} {req : NotifyRequest} {e : NotificationEnvelope}
    (h : buildEnvelope env server m req = .ok e) : m.identityKey ≠ "" := by
  obtain ⟨_, hKey, _⟩ := bind_eq_ok.mp h
  exact of_decide_eq_true (ensure_eq_ok.mp hKey)

/-- A request notifies only members that are listed exactly if every member that it is for
and to whose key the notification can be sealed is active. -/
theorem notified_listed_iff (env : Smtp.Env) (cfg : Smtp.Config) (server : Server)
    (store : Acl.Store) (request : Request) :
    (∀ d ∈ dispatched env cfg server store request, d.member ∈ listed store) ↔
      ∀ call ∈ addressed env cfg server store request,
        (buildEnvelope env.notify server call.1 call.2).isOk = true → active call.1 = true := by
  rw [dispatched_eq]
  constructor
  · intro hListed call hCall hOk
    cases hBuild : buildEnvelope env.notify server call.1 call.2 with
    | error e =>
        rw [hBuild] at hOk
        cases hOk
    | ok e =>
        have hMem := hListed ⟨call.1, e⟩ (List.mem_filterMap.mpr ⟨call, hCall, by rw [hBuild]; rfl⟩)
        have hEligible := (List.mem_filter.mp hMem).2
        exact (Bool.and_eq_true_iff.mp hEligible).2
  · intro hActive d hd
    obtain ⟨call, hCall, hSend⟩ := List.mem_filterMap.mp hd
    obtain ⟨e, hBuild, rfl⟩ := Option.map_eq_some_iff.mp hSend
    have hOk := toOption_eq_some.mp hBuild
    have hStatus := hActive call hCall (by rw [hOk]; rfl)
    have hKey := identityKey_of_buildEnvelope hOk
    exact List.mem_filter.mpr
      ⟨mem_members_of_addressed hCall, Bool.and_eq_true_iff.mpr ⟨decide_eq_true hKey, hStatus⟩⟩

def suspendedMember : MemberACLEntry :=
  { memberID := "b", userID := "u", memberName := "", email := "b@x", role := "member"
    identityKey := encode64 (List.replicate 32 2), joinAttestation := none, admittance := none
    clients := [], allowedApps := [], status := "suspended" }

def suspendedStore : Acl.Store := { Store.new with members := [suspendedMember] }.rebuildIndexes

/-- Every key can be sealed to, and every mail is a line of text. -/
def openEnv : Smtp.Env :=
  { notify :=
      { lower := id, sealAnonymous := fun _ _ => some "c", randomID := fun _ => "i"
        createdAt := fun _ => "t", post := fun _ => true }
    readEnvelope := fun _ =>
      some { html := "", text := "x", subject := "s", sender := "f", attachments := 0 }
    inlineCIDs := (·.html)
    htmlToPreview := id }

def keyedServer : Server := { apiKey := "k", agentID := "a" }

/-- A request by user id, a mail to the member, a mail to nobody and a broadcast. -/
def requestsToSuspended : List Request :=
  [.http "Bearer k" (utf8 "\x7b\"title\":\"t\",\"userId\":\"u\"\x7d"), .smtp "k" "f" " b@x" [],
    .smtp "k" "f" "nobody" [], .broadcast "t" [] "info"]

/-- All of them reach the suspended member, whom the server does not list. -/
theorem suspended_member_notified :
    listed suspendedStore = [] ∧
      ∀ request ∈ requestsToSuspended,
        (dispatched openEnv ⟨"b@x"⟩ keyedServer suspendedStore request).map (·.member.userID) =
          ["u"] := by
  decide +kernel

end Notify
