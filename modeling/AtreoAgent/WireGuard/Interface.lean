import AtreoAgent.Machine.Run
import AtreoAgent.WireGuard.Server

/-! The peers of the WireGuard interface in the kernel beside the peer table of the server. A
command that fails leaves the interface as it is. A new peer is entered in the table only if
`wg set` succeeded, but a removed peer leaves the table whether its command succeeded or not,
and a peer that is not in the table is never removed from the interface. -/
namespace WireGuard

open Codec Atreolink Machine

/-- The commands of `AddPeer` and `RemovePeer`. -/
inductive Command where
  | setPeer (pubKey allowedIPs : String)
  | dropPeer (pubKey : String)
  | route (v6 : Bool) (action destination : String)
  deriving DecidableEq, Repr

namespace Command

def args (iface : String) : Command → List String
  | setPeer pubKey allowedIPs => ["wg", "set", iface, "peer", pubKey, "allowed-ips", allowedIPs]
  | dropPeer pubKey => ["wg", "set", iface, "peer", pubKey, "remove"]
  | route v6 action destination =>
      ["ip"] ++ (if v6 then ["-6"] else []) ++ ["route", action, destination, "dev", iface]

/-- What a command does to the peers, which are given by their keys. `wg` takes a key only in
one spelling. -/
def effect : Command → Finset String → Finset String
  | setPeer pubKey _, kernel => insert pubKey kernel
  | dropPeer pubKey, kernel => kernel.erase pubKey
  | route _ _ _, kernel => kernel

/-- The peers after a command, if it succeeds, and without it, if it fails. -/
def run (iface : String) (exec : List String → Bool) (kernel : Finset String) (c : Command) :
    Finset String :=
  if exec (c.args iface) then c.effect kernel else kernel

end Command

/-- The table of the server and the keys of the peers in the kernel. -/
structure Interface where
  table : Peers
  kernel : Finset String

namespace Interface

/-- The interface is new when the server starts. -/
def fresh : Interface := ⟨∅, ∅⟩

variable (srv : Server) (exec : List String → Bool)

/-- Commands whose failure is only logged. -/
def runLogged (kernel : Finset String) (commands : List Command) : Finset String :=
  commands.foldl (Command.run srv.iface exec) kernel

/-- The routes of a peer, to be replaced or deleted. -/
def routes (action tunnelIP tunnelIPv6 : String) : List Command :=
  .route false action (tunnelIP ++ "/32") ::
    if tunnelIPv6 ≠ "" then [.route true action (tunnelIPv6 ++ "/128")] else []

def addPeer (i : Interface) (pubKey tunnelIP : String) : Interface × Except PeerError Unit :=
  if !validateWGPublicKey pubKey then (i, .error .pubkey)
  else if !validateTunnelIPv4 tunnelIP then (i, .error .tunnelIP)
  else
    let tunnelIPv6 := srv.tunnelIPv6 tunnelIP
    let set := Command.setPeer pubKey (srv.peerRoutes tunnelIP)
    let kernel := set.run srv.iface exec i.kernel
    if !exec (set.args srv.iface) then ({ i with kernel := kernel }, .error .command)
    else
      ({ table := i.table.insert pubKey ⟨pubKey, tunnelIP, tunnelIPv6⟩
         kernel := runLogged srv exec kernel (routes "replace" tunnelIP tunnelIPv6) }, .ok ())

def removePeer (i : Interface) (pubKey : String) : Interface × Except PeerError Unit :=
  match i.table.lookup pubKey with
  | none => (i, .ok ())
  | some peer =>
      ({ table := i.table.erase pubKey
         kernel := runLogged srv exec i.kernel
          (.dropPeer pubKey :: routes "del" peer.tunnelIP peer.tunnelIPv6) }, .ok ())

/-- The table part of adding a peer is that of the server. -/
theorem addPeer_table (i : Interface) (pubKey tunnelIP : String) :
    srv.addPeer exec i.table pubKey tunnelIP =
      (i.addPeer srv exec pubKey tunnelIP).2.map fun _ =>
        (i.addPeer srv exec pubKey tunnelIP).1.table := by
  rw [Server.addPeer, addPeer]
  split
  · rfl
  · split
    · rfl
    · cases hSet : exec ["wg", "set", srv.iface, "peer", pubKey, "allowed-ips",
        srv.peerRoutes tunnelIP] with
      | false => simp [Command.args, hSet, Except.map]
      | true => simp [Command.args, hSet, Except.map]

theorem removePeer_ok (i : Interface) (pubKey : String) :
    (i.removePeer srv exec pubKey).2 = .ok () := by
  rw [removePeer]
  split <;> rfl

theorem removePeer_table (i : Interface) (pubKey : String) :
    (i.removePeer srv exec pubKey).1.table = WireGuard.removePeer i.table pubKey := by
  rw [removePeer, WireGuard.removePeer]
  split
  next hNone =>
    apply Finmap.ext_lookup
    intro key
    by_cases hKey : key = pubKey
    · rw [hKey, hNone, Finmap.lookup_erase]
    · rw [Finmap.lookup_erase_ne hKey]
  next => rfl

@[simp] theorem runLogged_routes (kernel : Finset String) (action tunnelIP tunnelIPv6 : String) :
    runLogged srv exec kernel (routes action tunnelIP tunnelIPv6) = kernel := by
  unfold runLogged routes
  split <;> simp [Command.run, Command.effect]

end Interface

/-- A call of the server and the outcomes of its commands. -/
inductive PeerCall where
  | add (exec : List String → Bool) (pubKey tunnelIP : String)
  | remove (exec : List String → Bool) (pubKey : String)

namespace Interface

variable (srv : Server)

def handle (i : Interface) : PeerCall → Interface × Except PeerError Unit
  | .add exec pubKey tunnelIP => i.addPeer srv exec pubKey tunnelIP
  | .remove exec pubKey => i.removePeer srv exec pubKey

def step (i : Interface) (call : PeerCall) : Interface := (i.handle srv call).1

/-- Every peer in the kernel is in the table. -/
def Tracked (i : Interface) : Prop := ∀ key ∈ i.kernel, key ∈ i.table

/-- After the call every peer in the kernel is in the table, and a peer whose removal returned
nil is not in the kernel. -/
structure Kept (i : Interface) (call : PeerCall) : Prop where
  tracked : (i.step srv call).Tracked
  removed : ∀ exec key, call = .remove exec key → (i.handle srv call).2 = .ok () →
    key ∉ (i.step srv call).kernel

/-- The command that removes a peer from the kernel succeeds if the peer is there. -/
def Effective (i : Interface) (call : PeerCall) : Prop :=
  ∀ exec key, call = .remove exec key → key ∈ i.kernel →
    exec ((Command.dropPeer key).args srv.iface) = true

variable {srv} {i : Interface}

theorem Tracked.addPeer (h : i.Tracked) (exec : List String → Bool) (pubKey tunnelIP : String) :
    (i.addPeer srv exec pubKey tunnelIP).1.Tracked := by
  rw [Interface.addPeer]
  split
  · exact h
  · split
    · exact h
    · dsimp only
      split
      next hFails =>
        rw [Command.run, if_neg (by simpa using hFails)]
        exact h
      next hSucceeds =>
        rw [Command.run, if_pos (by simpa using hSucceeds), runLogged_routes]
        intro key hKey
        rcases Finset.mem_insert.mp hKey with rfl | hOld
        · exact Finmap.mem_insert.mpr (Or.inl rfl)
        · exact Finmap.mem_insert.mpr (Or.inr (h key hOld))

/-- What is left in the kernel when a peer is removed. -/
theorem mem_removePeer (h : i.Tracked) {exec : List String → Bool} {pubKey key : String} :
    key ∈ (i.removePeer srv exec pubKey).1.kernel ↔
      key ∈ i.kernel ∧
        (key = pubKey → exec ((Command.dropPeer pubKey).args srv.iface) = false) := by
  rw [removePeer]
  split
  next hNone =>
    have hAbsent : pubKey ∉ i.kernel := fun hKey => Finmap.lookup_eq_none.mp hNone (h pubKey hKey)
    constructor
    · intro hKey
      exact ⟨hKey, fun hSame => absurd (hSame ▸ hKey) hAbsent⟩
    · exact And.left
  next peer hPeer =>
    rw [runLogged, List.foldl_cons, ← runLogged, runLogged_routes, Command.run]
    split
    next hSucceeds => simp [Command.effect, hSucceeds, and_comm]
    next hFails => simp [hFails]

theorem kept_iff_effective (h : i.Tracked) (call : PeerCall) :
    Kept srv i call ↔ Effective srv i call := by
  cases call with
  | add exec pubKey tunnelIP =>
      constructor
      · intro _ exec' key hCall
        cases hCall
      · intro _
        refine ⟨h.addPeer exec pubKey tunnelIP, fun exec' key hCall => ?_⟩
        cases hCall
  | remove exec pubKey =>
      constructor
      · intro hKept exec' key hCall hKey
        cases hCall
        have hGone := hKept.removed exec pubKey rfl (removePeer_ok srv exec i pubKey)
        by_contra hFails
        exact hGone ((mem_removePeer h).mpr ⟨hKey, fun _ => eq_false_of_ne_true hFails⟩)
      · intro hEffective
        have hGone : pubKey ∉ (i.removePeer srv exec pubKey).1.kernel := by
          intro hKey
          obtain ⟨hThere, hFails⟩ := (mem_removePeer h).mp hKey
          exact absurd (hEffective exec pubKey rfl hThere) (by simp [hFails rfl])
        refine ⟨fun key hKey => ?_, fun exec' key hCall _ => ?_⟩
        · have hOther : key ≠ pubKey := fun hSame => hGone (hSame ▸ hKey)
          change key ∈ (i.removePeer srv exec pubKey).1.table
          rw [removePeer_table]
          exact Finmap.mem_erase.mpr ⟨hOther, h key ((mem_removePeer h).mp hKey).1⟩
        · cases hCall
          exact hGone

/-- From a new interface, calls keep every peer of the kernel in the table and remove what they
report as removed just if each command to remove a peer that is in the kernel succeeds. -/
theorem peers_tracked_iff (srv : Server) (calls : List PeerCall) :
    Meets (step srv) (Kept srv) fresh calls ↔
      Meets (step srv) (Effective srv) fresh calls := by
  have hFresh : fresh.Tracked := fun key hKey => absurd hKey (Finset.notMem_empty key)
  exact meets_congr Tracked (fun _ call hTracked => kept_iff_effective hTracked call)
    (fun _ _ _ hKept => hKept.tracked) hFresh calls

/-- A server without IPv6 overlay. -/
def overlayServer : Server :=
  { subnet := "100.64.0.0/24", serverIPv6 := "", subnetV6 := "", iface := "wg-atreo"
    publicKey := "", listenPort := 51820 }

def revokedKey : String := encode64 (List.replicate 32 3)

/-- A peer is added, the commands of its removal fail, and it is removed again. -/
def failedRemoval : List PeerCall :=
  [.add (fun _ => true) revokedKey "100.64.0.2", .remove (fun _ => false) revokedKey,
    .remove (fun _ => true) revokedKey]

/-- The peer stays in the kernel, although both removals return nil and every command of the
second would have succeeded. -/
theorem failed_removal_forgets_peer :
    ¬ Meets (step overlayServer) (Kept overlayServer) fresh failedRemoval ∧
      revokedKey ∈ (run (step overlayServer) fresh failedRemoval).kernel := by
  have hKernel :
      revokedKey ∈ (run (step overlayServer) fresh (failedRemoval.take 2)).kernel ∧
        revokedKey ∈ (run (step overlayServer) fresh failedRemoval).kernel := by
    decide +kernel
  have hSecond : run (step overlayServer) fresh (failedRemoval.take 2) =
      step overlayServer (run (step overlayServer) fresh (failedRemoval.take 1))
        (.remove (fun _ => false) revokedKey) := run_take_succ rfl
  rw [hSecond] at hKernel
  refine ⟨fun hMeets => ?_, hKernel.2⟩
  have hKept : Kept overlayServer (run (step overlayServer) fresh (failedRemoval.take 1))
      (.remove (fun _ => false) revokedKey) := hMeets.getElem rfl
  exact hKept.removed _ _ rfl (removePeer_ok _ _ _ _) hKernel.1

end Interface

end WireGuard
