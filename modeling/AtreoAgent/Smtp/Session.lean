import AtreoAgent.Notify.Server

/-! The mail gateway (package `smtp`): a session takes one recipient, by the address of a
member or by the catch-all, and hands the message to the notification server. -/
namespace Smtp

open Codec Atreolink Acl Notify

/-- A message as the MIME parser gives it. -/
structure Mail where
  html : String
  text : String
  subject : String
  sender : String
  attachments : Nat
  deriving DecidableEq, Repr

structure Env where
  notify : Notify.Env
  readEnvelope : Bytes → Option Mail
  /-- The HTML with the images of the message inside. -/
  inlineCIDs : Mail → String
  htmlToPreview : String → String

def Env.htmlBody (env : Env) (msg : Mail) : String :=
  if msg.html = "" then "" else env.inlineCIDs msg

structure Config where
  catchAll : String

inductive SMTPError where
  /-- `gosmtp.ErrAuthFailed` -/
  | authFailed
  /-- `gosmtp.ErrAuthUnknownMechanism` -/
  | unknownMechanism
  /-- `gosmtp.ErrAuthRequired` -/
  | authRequired
  /-- `452 4.5.3 only one recipient per message` -/
  | oneRecipient
  /-- `550 5.1.1 unknown recipient` -/
  | unknownRecipient
  /-- `503 5.5.1 send RCPT TO first` -/
  | noRecipient
  /-- `554 5.6.0 parse mime: …` -/
  | parseMime
  /-- `554 5.6.1 attachments not supported` -/
  | attachments
  /-- `554 5.6.0 empty message body` -/
  | emptyBody
  /-- `451 4.7.0 dispatch failed: …` -/
  | dispatchFailed (e : SendError)
  deriving DecidableEq, Repr

structure Session where
  authed : Bool := false
  sender : String := ""
  recipient : Option MemberACLEntry := none
  rcptTo : String := ""
  catchAll : Bool := false

namespace Session

/-- The password is the key of the notification server. -/
def validatePassword (server : Server) (s : Session) (password : String) :
    Except SMTPError Session :=
  if server.apiKey = "" ∨ password ≠ server.apiKey then .error .authFailed
  else .ok { s with authed := true }

def mail (s : Session) (sender : String) : Except SMTPError Session :=
  if s.authed then .ok { s with sender := sender } else .error .authRequired

def rcpt (env : Env) (cfg : Config) (store : Acl.Store) (s : Session) (address : String) :
    Except SMTPError Session :=
  if s.recipient.isSome then .error .oneRecipient
  else
    match store.lookupByEmail env.notify.lower address with
    | some member => .ok { s with recipient := some member }
    | none =>
        if cfg.catchAll = "" then .error .unknownRecipient
        else
          match store.lookupByEmail env.notify.lower cfg.catchAll with
          | some member => .ok { s with recipient := some member, rcptTo := address, catchAll := true }
          | none => .error .unknownRecipient

/-- The request `Data` makes of a message. -/
def request (env : Env) (s : Session) (msg : Mail) (html : String) : NotifyRequest :=
  let subject := if trimSpace msg.subject = "" then "(no subject)" else trimSpace msg.subject
  let emailFrom := if trimSpace msg.sender = "" then s.sender else trimSpace msg.sender
  let emailFrom := if s.catchAll then emailFrom ++ " → " ++ s.rcptTo else emailFrom
  let preview := utf8 (trimSpace (if msg.text = "" then env.htmlToPreview html else msg.text))
  { title := subject
    body := preview.take previewBodyChars
    html := html
    plaintext := msg.text
    severity := "info"
    emailFrom := emailFrom
    emailSubject := subject
    contentType := if html ≠ "" then "text/html" else "text/plain" }

/-- `Data` up to sending: the member and the request, or the error. -/
def compose (env : Env) (s : Session) (raw : Bytes) :
    Except SMTPError (MemberACLEntry × NotifyRequest) :=
  match s.recipient with
  | none => .error .noRecipient
  | some member =>
      match env.readEnvelope raw with
      | none => .error .parseMime
      | some msg =>
          if 0 < msg.attachments then .error .attachments
          else if env.htmlBody msg = "" ∧ msg.text = "" then .error .emptyBody
          else .ok (member, s.request env msg (env.htmlBody msg))

def data (env : Env) (server : Server) (s : Session) (raw : Bytes) :
    Option Dispatch × Except SMTPError Unit :=
  match s.compose env raw with
  | .error e => (none, .error e)
  | .ok (member, req) =>
      let (dispatch, outcome) := sendToMember env.notify server member req
      (dispatch, outcome.mapError .dispatchFailed)

def reset (s : Session) : Session :=
  { s with sender := "", recipient := none, rcptTo := "", catchAll := false }

end Session

/-- A session up to `DATA`. -/
def openMessage (env : Env) (cfg : Config) (server : Server) (store : Acl.Store)
    (password sender address : String) : Except SMTPError Session := do
  let s ← Session.validatePassword server {} password
  let s ← s.mail sender
  s.rcpt env cfg store address

/-- A session with one message. -/
def receive (env : Env) (cfg : Config) (server : Server) (store : Acl.Store)
    (password sender address : String) (raw : Bytes) : Option Dispatch × Except SMTPError Unit :=
  match openMessage env cfg server store password sender address with
  | .error e => (none, .error e)
  | .ok s => s.data env server raw

end Smtp
