import AtreoAgent.Machine.Run
import AtreoAgent.Tunnel.Handlers

/-! The life of an installation: pairing by the daemon or by the `pair` command, the
startup of the daemon from its files, messages and store operations while it runs, and
unpairing. The files may be replaced by anyone at any time. -/
namespace Lifecycle

open Codec Atreolink Acl WireGuard Tunnel

/-- The outcome of a pairing, as far as the access list uses it. -/
structure PairResult where
  ownerIdentityPubkey : Bytes
  ownerMemberID : String
  ownerUserID : String
  ownerEmail : String
  ownerName : String
  deriving DecidableEq, Repr

/-- Which writes to disk succeed. -/
structure Writes where
  pin : Bool
  acl : Bool
  deriving DecidableEq, Repr

structure Files where
  acl : File PersistedState
  pin : File AdminPinFile

/-- The daemon: not running, paired but not yet started, or handling messages. -/
inductive Process where
  | stopped
  | paired (store : Store)
  | running (agent : Agent)

structure Installation where
  files : Files
  process : Process

/-- The row the daemon installs for the owner. -/
def PairResult.ownerEntry (r : PairResult) : MemberACLEntry :=
  { memberID := r.ownerMemberID, userID := r.ownerUserID, memberName := r.ownerName,
    email := r.ownerEmail, role := "owner", identityKey := encode64 r.ownerIdentityPubkey,
    joinAttestation := none, admittance := none, clients := [], allowedApps := [],
    status := "active" }

/-- The `pair` command leaves out the details of the owner. -/
def PairResult.commandEntry (r : PairResult) : MemberACLEntry :=
  { r.ownerEntry with userID := "", memberName := "", email := "" }

/-- Pin the owner key and install the owner row. `none` is the error that ends the
process. -/
def pinOwner (files : Files) (store : Store) (r : PairResult) (entry : MemberACLEntry)
    (writes : Writes) : Files × Option Store :=
  match store.setPinnedAdminPublicKey r.ownerIdentityPubkey with
  | .error _ => (files, none)
  | .ok pinned =>
      if !writes.pin then (files, none)
      else
        let files := { files with pin := .parsed ⟨encode64 r.ownerIdentityPubkey⟩ }
        if r.ownerMemberID = "" then (files, some pinned)
        else
          match pinned.upsertMember entry with
          | .error _ => (files, none)
          | .ok store =>
              (if writes.acl then { files with acl := .parsed store.persisted } else files,
                some store)

/-- The check of `Run` on the rows read from disk. Admin rows are let through. -/
def reverifies (env : Env) (m : MemberACLEntry) : Bool :=
  m.isAdmin ||
    match m.admittance with
    | none => false
    | some cert =>
        (verifyAdmittanceCertificate env cert m.memberID m.identityKey env.agentKey.base64).isOk

/-- Logging a failure takes the first sixteen bytes of the key. -/
def shortKey (key : String) : Bool := (utf8 key).length < 16

/-- One client of `reconcilePeers`; `none` is a crash of the process. -/
def reconcileClient (env : Env) (exec : List String → Bool) (memberID : String) (agent : Agent)
    (c : ClientRecord) : Option Agent :=
  if c.wgPublicKey = "" then some agent
  else
    let renumbered := c.tunnelIP = "" ∨ !env.subnet.inSubnet c.tunnelIP
    match if renumbered then agent.allocator.allocate env.subnet c.wgPublicKey
        else some (agent.allocator, c.tunnelIP) with
    | none => if shortKey c.wgPublicKey then none else some agent
    | some (allocator, tunnelIP) =>
        match env.server.addPeer exec agent.peers c.wgPublicKey tunnelIP with
        | .error _ =>
            if shortKey c.wgPublicKey then none else some { agent with allocator := allocator }
        | .ok peers =>
            some { agent with
              allocator := allocator
              peers := peers
              store := (agent.store.addClient memberID
                { wgPublicKey := c.wgPublicKey, tunnelIP := tunnelIP,
                  tunnelIPv6 := env.server.tunnelIPv6 tunnelIP, label := c.label,
                  platform := c.platform }).1 }

/-- `reconcilePeers` over the rows of the store. The peer table is empty at startup, so
there is no stale peer to remove at the end. -/
def reconcilePeers (env : Env) (exec : List String → Bool) (agent : Agent) : Option Agent :=
  let members := agent.store.members
  let marked := { agent with
    allocator := (members.flatMap (·.clients)).foldl
      (fun a c => a.markUsed env.subnet c.wgPublicKey c.tunnelIP) agent.allocator }
  (members.filter fun m => m.status = "" ∨ m.status = "active").foldlM
    (fun agent m => m.clients.foldlM (reconcileClient env exec m.memberID) agent) marked

/-- The store when startup reads the files: that of the pairing before it, or a new
one. -/
def Process.storeAtLoad : Process → Store
  | .paired store => store
  | _ => Store.new

/-- The store after loading and re-verification. -/
def loadStore (env : Env) (files : Files) (store : Store) : Store :=
  let loaded := (store.load files.pin files.acl).1
  if loaded.pinnedAdminPubKey.isSome then (loaded.dropMembersFailing (reverifies env)).1 else loaded

/-- Startup up to the point where messages are handled. `leases` is the state file of
the allocator. -/
def startup (env : Env) (exec : List String → Bool) (leases : List (String × String))
    (files : Files) (store : Store) : Option Agent :=
  reconcilePeers env exec
    { store := loadStore env files store
      allocator := (Allocator.new env.subnet).load env.subnet leases
      peers := ∅
      nonces := ∅
      live := none }

/-- The exported operations of the store. -/
inductive StoreOp where
  | replaceAll (members : List MemberACLEntry)
  | reconcile (members : List MemberACLEntry) (apps : List App)
  | upsertMember (member : MemberACLEntry)
  | setAllowedApps (memberID : String) (apps : List App)
  | setMemberStatus (memberID status : String)
  | addClient (memberID : String) (rec : ClientRecord)
  | removeClient (memberID wgPublicKey : String)
  | setAppDefinitions (apps : List App)
  | removeAppByID (appID : String)
  | removeMember (memberID : String)
  | setAppliedGeneration (gen : Int) (appliedAt : Time)
  | dropMembersFailing (accepts : MemberACLEntry → Bool)
  | setPinnedAdminPublicKey (pub : Bytes)
  | clearPinnedAdminPublicKey

/-- An operation that returns an error leaves the store as it was. -/
def StoreOp.apply (s : Store) : StoreOp → Store
  | replaceAll members => (s.replaceAll members).toOption.getD s
  | reconcile members apps => ((s.reconcile members apps).toOption.map (·.1)).getD s
  | upsertMember member => (s.upsertMember member).toOption.getD s
  | setAllowedApps memberID apps => (s.setAllowedApps memberID apps).1
  | setMemberStatus memberID status => (s.setMemberStatus memberID status).1
  | addClient memberID rec => (s.addClient memberID rec).1
  | removeClient memberID wgPublicKey => (s.removeClient memberID wgPublicKey).1
  | setAppDefinitions apps => s.setAppDefinitions apps
  | removeAppByID appID => s.removeAppByID appID
  | removeMember memberID => s.removeMember memberID
  | setAppliedGeneration gen appliedAt => s.setAppliedGeneration gen appliedAt
  | dropMembersFailing accepts => (s.dropMembersFailing accepts).1
  | setPinnedAdminPublicKey pub => (s.setPinnedAdminPublicKey pub).toOption.getD s
  | clearPinnedAdminPublicKey => s.clearPinnedAdminPublicKey

inductive Step where
  /-- Someone replaces the files. -/
  | writeFiles (files : Files)
  | pairDaemon (r : PairResult) (writes : Writes)
  | pairCommand (r : PairResult) (writes : Writes)
  | start (exec : List String → Bool) (leases : List (String × String)) (saved : Bool)
  /-- A message or a timer. `saved` tells, here and at startup, whether the access list
  is written afterwards. -/
  | handle (input : Input) (saved : Bool)
  | storeOp (op : StoreOp)
  /-- A message that unpairs; `removed` tells whether the pin file could be removed. -/
  | unpair (now : Time) (msg : TunnelMessage) (removed : Bool)
  | stop

def Installation.save (inst : Installation) (store : Store) (saved : Bool) : Files :=
  if saved then { inst.files with acl := .parsed store.persisted } else inst.files

def Installation.step (env : Env) (inst : Installation) : Step → Installation
  | .writeFiles files => { inst with files := files }
  | .pairDaemon r writes =>
      match inst.process with
      | .stopped =>
          match pinOwner inst.files Store.new r r.ownerEntry writes with
          | (files, none) => { inst with files := files }
          | (files, some store) => { files := files, process := .paired store }
      | _ => inst
  | .pairCommand r writes =>
      let store := (Store.new.load inst.files.pin inst.files.acl).1
      { inst with files := (pinOwner inst.files store r r.commandEntry writes).1 }
  | .start exec leases saved =>
      match inst.process with
      | .running _ => inst
      | process =>
          match startup env exec leases inst.files process.storeAtLoad with
          | none => { inst with process := .stopped }
          | some agent => { files := inst.save agent.store saved, process := .running agent }
  | .handle input saved =>
      match inst.process with
      | .running agent =>
          let agent := agent.step env input
          { files := inst.save agent.store saved, process := .running agent }
      | _ => inst
  | .storeOp op =>
      match inst.process with
      | .running agent =>
          { inst with process := .running { agent with store := op.apply agent.store } }
      | _ => inst
  | .unpair now msg removed =>
      match inst.process with
      | .running agent =>
          if agent.acceptsUnpaired env now msg then
            { files := if removed then { inst.files with pin := .missing } else inst.files
              process := .stopped }
          else inst
      | _ => inst
  | .stop => { inst with process := .stopped }

end Lifecycle
