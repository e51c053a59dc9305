import AtreoAgent.Atreolink.Types
import AtreoAgent.Codec.Text

/-! The access list of the agent (package `acl`). Members are kept in a list, and the
indexes point into it by position; of several members with one id, one tunnel address or
one email the last is found. The pinned admin key restricts which rows may claim the
admin or owner role. -/
namespace Acl

open Codec Atreolink

structure Store where
  members : List MemberACLEntry
  apps : List App
  pinnedAdminPubKey : Option PublicKey
  generation : Int
  lastAppliedAt : Option Time
  byTunnelIP : StringMap Nat
  byMemberID : StringMap Nat
  /-- One index for each mapping of letters to lower case. -/
  byEmailFull : (Char → Char) → StringMap Nat

inductive Error where
  /-- `acl: pinned admin public key is already set; clear via re-pair` -/
  | adminPinAlreadySet
  /-- `pubkey must be 32 bytes, got …` -/
  | pubkeySize (got : Nat)
  /-- `acl: admin entry IdentityKey does not match pinned admin pubkey`, with the
  member and the key it claims -/
  | adminPinViolation (memberID identityKey : String)
  /-- `load admin pin: …` -/
  | loadPin
  /-- the access list does not parse -/
  | loadState
  deriving DecidableEq, Repr

/-- Positions of the members by id; a later member overwrites an earlier one. -/
def positions (members : List MemberACLEntry) : StringMap Nat :=
  members.zipIdx.foldl (fun index m => index.insert m.1.memberID m.2) ∅

/-- Positions of the members by each of their names; a later member overwrites an earlier
one. -/
def positionsBy (names : MemberACLEntry → List String) (members : List MemberACLEntry) :
    StringMap Nat :=
  members.zipIdx.foldl (fun index m =>
    (names m.1).foldl (fun index name => index.insert name m.2) index) ∅

/-- The tunnel addresses of a member, of both families. -/
def tunnelIPs (m : MemberACLEntry) : List String :=
  m.clients.flatMap fun c => [c.tunnelIP, c.tunnelIPv6].filter (· ≠ "")

/-- The form in which emails are compared. -/
def foldEmail (lower : Char → Char) (email : String) : String := toLower lower (trimSpace email)

/-- The email of a member, if it has one. -/
def emails (lower : Char → Char) (m : MemberACLEntry) : List String :=
  [foldEmail lower m.email].filter (· ≠ "")

/-- The contents of a file that may be missing or fail to parse. -/
inductive File (α : Type) where
  | missing
  | invalid
  | parsed (content : α)

/-- `acl.json`. -/
structure PersistedState where
  members : List MemberACLEntry
  apps : List App
  generation : Int
  lastAppliedAt : Option Time

/-- `admin_pin.json`. -/
structure AdminPinFile where
  publicKey : String

namespace Store

def new : Store :=
  { members := [], apps := [], pinnedAdminPubKey := none, generation := 0, lastAppliedAt := none,
    byTunnelIP := ∅, byMemberID := ∅, byEmailFull := fun _ => ∅ }

def rebuildIndexes (s : Store) : Store :=
  { s with
    byTunnelIP := positionsBy tunnelIPs s.members
    byMemberID := positions s.members
    byEmailFull := fun lower => positionsBy (emails lower) s.members }

def lookupByTunnelIP (s : Store) (ip : String) : Option MemberACLEntry :=
  (s.byTunnelIP.lookup ip).bind fun i => s.members[i]?

def lookupByMemberID (s : Store) (id : String) : Option MemberACLEntry :=
  (s.byMemberID.lookup id).bind fun i => s.members[i]?

def lookupByEmail (lower : Char → Char) (s : Store) (email : String) : Option MemberACLEntry :=
  ((s.byEmailFull lower).lookup (foldEmail lower email)).bind fun i => s.members[i]?

/-- `loadPinLocked`. -/
def loadPin : File AdminPinFile → Except Error (Option PublicKey)
  | .missing => .ok none
  | .invalid => .error .loadPin
  | .parsed file =>
      if file.publicKey = "" then .ok none
      else
        match decodeEd25519 file.publicKey with
        | some pub => .ok (some pub)
        | none => .error .loadPin

/-- `Load`. The pin is read first and stays when the access list does not parse. -/
def load (s : Store) (pin : File AdminPinFile) (acl : File PersistedState) :
    Store × Except Error Unit :=
  match loadPin pin with
  | .error e => (s, .error e)
  | .ok pub =>
      match acl with
      | .missing =>
          ({ s with
            pinnedAdminPubKey := pub
            members := []
            apps := []
            byTunnelIP := ∅
            byMemberID := ∅
            byEmailFull := fun _ => ∅ }, .ok ())
      | .invalid => ({ s with pinnedAdminPubKey := pub }, .error .loadState)
      | .parsed state =>
          (rebuildIndexes { s with
            pinnedAdminPubKey := pub
            members := state.members
            apps := state.apps
            generation := state.generation
            lastAppliedAt := state.lastAppliedAt.or s.lastAppliedAt }, .ok ())

/-- What `Save` writes. The time of the last apply is cut to seconds. -/
def persisted (s : Store) : PersistedState :=
  { members := s.members
    apps := s.apps
    generation := s.generation
    lastAppliedAt := s.lastAppliedAt.map fun t => t / 1000000000 * 1000000000 }

def setPinnedAdminPublicKey (s : Store) (pub : Bytes) : Except Error Store :=
  if h : pub.length = 32 then
    if s.pinnedAdminPubKey.isSome then .error .adminPinAlreadySet
    else .ok { s with pinnedAdminPubKey := some ⟨pub, h⟩ }
  else .error (.pubkeySize pub.length)

def clearPinnedAdminPublicKey (s : Store) : Store := { s with pinnedAdminPubKey := none }

/-- Every admin row must carry the pinned key; a blank key is refused too. -/
def validateAdminPin (s : Store) (members : List MemberACLEntry) : Except Error Unit :=
  match s.pinnedAdminPubKey with
  | none => .ok ()
  | some pin =>
      match members.find? (fun m => m.isAdmin && (m.identityKey = "" || m.identityKey ≠ pin.base64)) with
      | none => .ok ()
      | some m => .error (.adminPinViolation m.memberID m.identityKey)

def replaceAll (s : Store) (members : List MemberACLEntry) : Except Error Store := do
  s.validateAdminPin members
  .ok (rebuildIndexes { s with members := members })

def setAppliedGeneration (s : Store) (gen : Int) (appliedAt : Time) : Store :=
  { s with generation := gen, lastAppliedAt := some appliedAt }

end Store

/-- The WG keys of all client records, in order. -/
def clientKeys (members : List MemberACLEntry) : List String :=
  members.flatMap fun m => m.clients.map (·.wgPublicKey)

/-- Keys present before and absent after, each reported once. -/
def removedClientKeys (before after : List MemberACLEntry) : List String :=
  (clientKeys before).foldl (fun removed k =>
    if k = "" ∨ k ∈ clientKeys after ∨ k ∈ removed then removed else removed ++ [k]) []

/-- What `reconcile` reports as gone. -/
structure Removed where
  members : List MemberACLEntry
  clientKeys : List String
  appIDs : List String

namespace Store

def reconcile (s : Store) (members : List MemberACLEntry) (apps : List App) :
    Except Error (Store × Removed) := do
  s.validateAdminPin members
  let removed : Removed :=
    { members := s.members.filter fun prev => prev.memberID ∉ members.map (·.memberID)
      clientKeys := removedClientKeys s.members members
      appIDs := (s.apps.filter fun prev => prev.id ∉ apps.map (·.id)).map (·.id) }
  .ok (rebuildIndexes { s with members := members, apps := apps }, removed)

end Store

/-- Fields the incoming record leaves empty are taken from the one it replaces. -/
def ClientRecord.fillFrom (c prev : ClientRecord) (keepIPv6 : Bool) : ClientRecord :=
  { c with
    tunnelIP := if c.tunnelIP = "" then prev.tunnelIP else c.tunnelIP
    tunnelIPv6 := if keepIPv6 && c.tunnelIPv6 = "" then prev.tunnelIPv6 else c.tunnelIPv6
    label := if c.label = "" then prev.label else c.label
    platform := if c.platform = "" then prev.platform else c.platform
    endpointType := if c.endpointType = "" then prev.endpointType else c.endpointType }

/-- Replace the first element that meets the test. -/
def updateFirst {α : Type} (p : α → Bool) (f : α → α) : List α → List α
  | [] => []
  | a :: as => if p a then f a :: as else a :: updateFirst p f as

namespace Store

/-- The row that takes the place of `existing`: agent-assigned client data survive. -/
def mergeMember (existing member : MemberACLEntry) : MemberACLEntry :=
  if member.clients = [] then { member with clients := existing.clients }
  else
    { member with
      clients := member.clients.map fun c =>
        match existing.clients.reverse.find? (·.wgPublicKey = c.wgPublicKey) with
        | some prev => ClientRecord.fillFrom c prev false
        | none => c }

def upsertMember (s : Store) (member : MemberACLEntry) : Except Error Store := do
  s.validateAdminPin [member]
  let members :=
    if s.members.any (·.memberID = member.memberID) then
      updateFirst (·.memberID = member.memberID) (mergeMember · member) s.members
    else s.members ++ [member]
  .ok (rebuildIndexes { s with members := members })

def setAllowedApps (s : Store) (memberID : String) (apps : List App) : Store × Bool :=
  if s.members.any (·.memberID = memberID) then
    (rebuildIndexes { s with
      members := updateFirst (·.memberID = memberID) ({ · with allowedApps := apps }) s.members },
      true)
  else (s, false)

def setMemberStatus (s : Store) (memberID status : String) : Store × Option (List ClientRecord) :=
  match s.members.find? (·.memberID = memberID) with
  | some m =>
      (rebuildIndexes { s with
        members := updateFirst (·.memberID = memberID) ({ · with status := status }) s.members },
        some m.clients)
  | none => (s, none)

/-- The clients of another member that may stay when `rec` is added: neither the key
nor the address may be shared. -/
def keepsApart (rec c : ClientRecord) : Bool :=
  !(c.wgPublicKey = rec.wgPublicKey || (rec.tunnelIP ≠ "" && c.tunnelIP = rec.tunnelIP))

/-- Put a record among the clients of its member, over one with the same key. -/
def putClient (rec : ClientRecord) (clients : List ClientRecord) : List ClientRecord :=
  if clients.any (·.wgPublicKey = rec.wgPublicKey) then
    updateFirst (·.wgPublicKey = rec.wgPublicKey) (fun c => ClientRecord.fillFrom rec c true) clients
  else clients ++ [rec]

/-- The row of another member without what it may not share. -/
def strip (memberID : String) (rec : ClientRecord) (m : MemberACLEntry) : MemberACLEntry :=
  if m.memberID = memberID then m else { m with clients := m.clients.filter (keepsApart rec) }

/-- `AddClient`. For an unknown member the other members have already been stripped
when it gives up. -/
def addClient (s : Store) (memberID : String) (rec : ClientRecord) : Store × Bool :=
  if rec.wgPublicKey = "" then (s, false)
  else
    let stripped := s.members.map (strip memberID rec)
    if stripped.any (·.memberID = memberID) then
      (rebuildIndexes { s with
        members := updateFirst (·.memberID = memberID)
          (fun m => { m with clients := putClient rec m.clients }) stripped }, true)
    else ({ s with members := stripped }, false)

/-- Only the first member with the id is looked at. -/
def removeClient (s : Store) (memberID wgPublicKey : String) : Store × Bool :=
  match s.members.find? (·.memberID = memberID) with
  | none => (s, false)
  | some m =>
      let cleared := { s with
        members := updateFirst (·.memberID = memberID)
          (fun m => { m with clients := m.clients.filter (·.wgPublicKey ≠ wgPublicKey) }) s.members }
      if m.clients.any (·.wgPublicKey = wgPublicKey) then (rebuildIndexes cleared, true)
      else (cleared, false)

/-- Upsert into the catalogue, and into the allowed apps that name the same id. -/
def setAppDefinitions (s : Store) (apps : List App) : Store :=
  let catalogue := apps.foldl (fun known incoming =>
    if known.any (·.id = incoming.id) then updateFirst (·.id = incoming.id) (fun _ => incoming) known
    else known ++ [incoming]) s.apps
  { s with
    apps := catalogue
    members := s.members.map fun m =>
      { m with
        allowedApps := m.allowedApps.map fun a => (apps.reverse.find? (·.id = a.id)).getD a } }

def removeAppByID (s : Store) (appID : String) : Store :=
  { s with
    apps := s.apps.filter (·.id ≠ appID)
    members := s.members.map fun m =>
      { m with allowedApps := m.allowedApps.filter (·.id ≠ appID) } }

def removeMember (s : Store) (memberID : String) : Store :=
  rebuildIndexes { s with members := s.members.eraseP (·.memberID = memberID) }

/-- Rows that fail the check are dropped and reported. -/
def dropMembersFailing (s : Store) (accepts : MemberACLEntry → Bool) :
    Store × List MemberACLEntry :=
  let dropped := s.members.filter (! accepts ·)
  if dropped = [] then (s, [])
  else (rebuildIndexes { s with members := s.members.filter accepts }, dropped)

end Store

/-- The ports that one client may reach. -/
structure PortGrant where
  tunnelIP : String
  tunnelIPv6 : String
  tcp : List Int
  udp : List Int
  deriving DecidableEq, Repr

/-- The port of a port app, if it is one for the protocols. -/
def portOf (protocols : List String) (app : App) : Option Int :=
  if app.isPort ∧ 1 ≤ app.port ∧ app.port ≤ 65535 ∧ app.protocol ∈ protocols then some app.port
  else none

/-- One grant for each client with an address of an active member with port apps. -/
def Store.portGrants (s : Store) : List PortGrant :=
  (s.members.filter fun m => m.status = "" ∨ m.status = "active").flatMap fun m =>
    let tcp := m.allowedApps.filterMap (portOf ["tcp", "http", "https"])
    let udp := m.allowedApps.filterMap (portOf ["udp"])
    if tcp = [] ∧ udp = [] then []
    else
      (m.clients.filter (·.tunnelIP ≠ "")).map fun c =>
        { tunnelIP := c.tunnelIP, tunnelIPv6 := c.tunnelIPv6, tcp := tcp, udp := udp }

end Acl
