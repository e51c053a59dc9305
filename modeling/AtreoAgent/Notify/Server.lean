import AtreoAgent.Acl.Access
import AtreoAgent.Json.Decode
import AtreoAgent.Machine.Fallible

/-! The notification server (package `notify`). A notification is sealed to the identity
key of one member and handed to the coordination service. The server takes requests over
HTTP, from the mail gateway and from the agent itself. -/
namespace Notify

open Codec Json Atreolink Acl Fallible

/-- How much of the body goes into the summary of a notification with a full body. -/
def previewBodyChars : Nat := 200

def maxNotifyBody : Nat := 64 * 1024

/-- The body is kept as bytes, as cutting it may leave a part of a character at its end. -/
structure NotifyRequest where
  userID : String := ""
  userEmail : String := ""
  title : String
  body : Bytes
  html : String := ""
  plaintext : String := ""
  contentType : String := ""
  severity : String
  emailFrom : String := ""
  emailSubject : String := ""
  deriving DecidableEq, Repr

def NotifyRequest.schema : Schema :=
  [("userId", .leaf .text), ("userEmail", .leaf .text), ("title", .leaf .text),
    ("body", .leaf .text), ("html", .leaf .text), ("plaintext", .leaf .text),
    ("contentType", .leaf .text), ("severity", .leaf .text), ("emailFrom", .leaf .text),
    ("emailSubject", .leaf .text)]

def NotifyRequest.read (es : List Event) : NotifyRequest :=
  let text (name : String) := finalText (storesAt [name] es)
  { userID := text "userId", userEmail := text "userEmail", title := text "title"
    body := utf8 (text "body"), html := text "html", plaintext := text "plaintext"
    contentType := text "contentType", severity := text "severity"
    emailFrom := text "emailFrom", emailSubject := text "emailSubject" }

/-- The first value in the part of the body that is read. -/
def decodeRequest (body : Bytes) : Option NotifyRequest :=
  (parse (body.take maxNotifyBody)).bind fun r =>
    (decodeStruct NotifyRequest.schema r.1).map NotifyRequest.read

/-- What is handed to the coordination service. The three fields are sealed. -/
structure NotificationEnvelope where
  userID : String
  agentID : String
  summary : String
  html : Option String
  plaintext : Option String
  severity : String
  deriving DecidableEq, Repr

/-- What the server takes from outside. -/
structure Env where
  lower : Char → Char
  /-- `box.SealAnonymous`, in base64; fails for a key that is not a point. -/
  sealAnonymous : PublicKey → Bytes → Option String
  /-- The random id and the time in the summary for a member. -/
  randomID : MemberACLEntry → String
  createdAt : MemberACLEntry → String
  /-- Whether the coordination service takes the envelope. -/
  post : NotificationEnvelope → Bool

structure Server where
  apiKey : String
  agentID : String

inductive SendError where
  /-- `member … has no identity pubkey on the agent yet` -/
  | noIdentityKey (userID : String)
  /-- `seal summary: …` -/
  | sealSummary
  /-- `seal html: …` -/
  | sealHTML
  /-- `seal plaintext: …` -/
  | sealPlaintext
  /-- the coordination service refuses -/
  | relay
  deriving DecidableEq, Repr

/-- A notification that was handed over, and the row it is for. -/
structure Dispatch where
  member : MemberACLEntry
  envelope : NotificationEnvelope
  deriving DecidableEq, Repr

/-- Bytes as `encoding/json` writes them, with a sign for what is not UTF-8. -/
def textOf (bs : Bytes) : String := String.ofList (decodeRunes bs.length bs)

section Send

variable (env : Env) (server : Server)

def sealToUser (identityKey : String) (plaintext : Bytes) : Option String :=
  (decodeEd25519 identityKey).bind fun key => env.sealAnonymous key plaintext

/-- The entries of the summary, in the order of their names. -/
def summary (member : MemberACLEntry) (req : NotifyRequest) : Doc :=
  let hasFullBody := req.html ≠ "" ∨ req.plaintext ≠ ""
  let body :=
    if hasFullBody ∧ previewBodyChars < req.body.length then req.body.take previewBodyChars
    else req.body
  let contentType :=
    if req.contentType ≠ "" then req.contentType
    else if req.html ≠ "" then "text/html" else "text/plain"
  .obj ([("body", .str (textOf body))] ++
    (if hasFullBody then [("contentType", .str contentType)] else []) ++
    [("createdAt", .str (env.createdAt member))] ++
    (if req.emailFrom ≠ "" then [("emailFrom", .str req.emailFrom)] else []) ++
    (if req.emailSubject ≠ "" then [("emailSubject", .str req.emailSubject)] else []) ++
    (if hasFullBody then [("hasFullBody", .bool true)] else []) ++
    [("id", .str (env.randomID member)), ("title", .str req.title)])

/-- A full body, which may be missing. -/
def sealBody (e : SendError) (identityKey text : String) : Except SendError (Option String) :=
  if text = "" then .ok none else (require e (sealToUser env identityKey (utf8 text))).map some

/-- `SendToMember` up to handing the envelope over. -/
def buildEnvelope (member : MemberACLEntry) (req : NotifyRequest) :
    Except SendError NotificationEnvelope := do
  ensure (.noIdentityKey member.userID) (member.identityKey ≠ "")
  let summaryCT ← require .sealSummary
    (sealToUser env member.identityKey ((summary env member req).print true))
  let html ← sealBody env .sealHTML member.identityKey req.html
  let plaintext ← sealBody env .sealPlaintext member.identityKey req.plaintext
  .ok { userID := member.userID, agentID := server.agentID, summary := summaryCT, html := html,
        plaintext := plaintext, severity := req.severity }

/-- What is handed over, and the outcome. -/
def sendToMember (member : MemberACLEntry) (req : NotifyRequest) :
    Option Dispatch × Except SendError Unit :=
  match buildEnvelope env server member req with
  | .error e => (none, .error e)
  | .ok e => (some ⟨member, e⟩, if env.post e then .ok () else .error .relay)

end Send

/-- What `handleMembers` asks of a member it lists. -/
def eligible (m : MemberACLEntry) : Bool := m.identityKey ≠ "" && active m

/-- The rows `handleMembers` lists. -/
def listed (store : Acl.Store) : List MemberACLEntry := store.members.filter eligible

/-- The answer to a request. -/
inductive Answer where
  | sent (userID : String)
  | error (status : Nat) (message : String)
  deriving DecidableEq, Repr

/-- `authMiddleware`: the key after the word `Bearer`. -/
def authorised (server : Server) (authorization : String) : Bool :=
  (utf8 "Bearer ").isPrefixOf (utf8 authorization) &&
    (utf8 authorization).drop 7 = utf8 server.apiKey

def resolveMember (lower : Char → Char) (store : Acl.Store) (userID userEmail : String) :
    Except String MemberACLEntry :=
  if userID ≠ "" then
    require "no member with that userId" (store.members.find? (·.userID = userID))
  else require "no member with that email" (store.lookupByEmail lower userEmail)

section Handlers

variable (env : Env) (server : Server) (store : Acl.Store)

/-- `handleNotify` up to sending: the member and the request, or the answer. -/
def readNotify (authorization : String) (body : Bytes) :
    Except Answer (MemberACLEntry × NotifyRequest) := do
  ensure (.error 401 "invalid or missing API key") (authorised server authorization)
  let req ← require (.error 400 "invalid request body") (decodeRequest body)
  ensure (.error 400 "title is required") (req.title ≠ "")
  let req := if req.severity = "" then { req with severity := "info" } else req
  ensure (.error 400 "exactly one of userId or userEmail is required")
    (decide (req.userID = "") ≠ decide (req.userEmail = ""))
  let member ← (resolveMember env.lower store req.userID req.userEmail).mapError (.error 404)
  .ok (member, req)

def handleNotify (authorization : String) (body : Bytes) : Option Dispatch × Answer :=
  match readNotify env server store authorization body with
  | .error answer => (none, answer)
  | .ok (member, req) =>
      let (dispatch, outcome) := sendToMember env server member req
      (dispatch, if outcome.isOk then .sent member.userID else .error 500 "send failed")

/-- The request of a broadcast. -/
def alert (title : String) (body : Bytes) (severity : String) : NotifyRequest :=
  { title := title, body := body, severity := severity }

/-- What is handed over, and how many sends went well and failed. -/
def sendToAll (title : String) (body : Bytes) (severity : String) :
    List Dispatch × (Nat × Nat) :=
  let results := store.members.map fun m => sendToMember env server m (alert title body severity)
  (results.filterMap (·.1),
    results.countP (fun r => r.2.isOk), results.countP (fun r => !r.2.isOk))

end Handlers

end Notify
