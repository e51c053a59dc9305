import AtreoAgent.Acl.Store
import AtreoAgent.Firewall.Rules

/-! The firewall manager. It drives the tables of both families by single commands, each of
which may fail, and the states between two commands are recorded. Errors are given by
their texts, without the output of the command that failed. -/
namespace Firewall

open Netfilter

/-- The tables of the host. -/
abbrev Tables (H : Type) : Type := Family → Table String (Match H)

/-- What goes wrong during a call: the binaries that are missing, and the commands that
fail although the table would allow them, by their number in the call. -/
structure Faults (H : Type) where
  onPath : Family → Bool
  denies : Nat → Family → Command String (Match H) → Bool

/-- Nothing goes wrong. -/
def Faults.none {H : Type} : Faults H := { onPath := fun _ => true, denies := fun _ _ _ => false }

/-- The tables and, newest first, those after each command of the call. -/
structure World (H : Type) where
  tables : Tables H
  visited : List (Tables H)

structure Manager where
  cfg : Config
  enabled : Bool
  portGrants : List PortGrant

def NewManager (cfg : Config) : Manager := { cfg := cfg, enabled := false, portGrants := [] }

section Commands

variable {H : Type} [DecidableEq H] (host : Host H) (faults : Faults H)

/-- One command, and whether it succeeded. -/
def World.run (w : World H) (fam : Family) (cmd : Command String (Match H)) : World H × Bool :=
  match if faults.denies w.visited.length fam cmd then none
      else (w.tables fam).exec (Match.valid host fam) cmd with
  | none => ({ w with visited := w.tables :: w.visited }, false)
  | some t =>
      ({ tables := Function.update w.tables fam t
         visited := Function.update w.tables fam t :: w.visited }, true)

/-- Run the commands up to the first that fails, which gives the error. -/
def World.runAll (w : World H) (fam : Family) :
    List (Command String (Match H) × String) → World H × Option String
  | [] => (w, none)
  | (cmd, text) :: rest =>
      match w.run host faults fam cmd with
      | (w, true) => runAll w fam rest
      | (w, false) => (w, some text)

/-- Repeat the command until it fails, `n` times at most. -/
def World.drain (w : World H) (fam : Family) (cmd : Command String (Match H)) : Nat → World H
  | 0 => w
  | n + 1 =>
      match w.run host faults fam cmd with
      | (w, true) => drain w fam cmd n
      | (w, false) => w

variable (cfg : Config)

def inputJump : Rule String (Match H) := jumpRule cfg inputChain

def forwardJump : Rule String (Match H) := jumpRule cfg forwardChain

/-- `teardown` for one family. Errors are ignored. -/
def World.teardownTable (w : World H) (fam : Family) : World H :=
  let w := w.drain host faults fam (.delete (.builtin .input) (inputJump cfg)) 8
  let w := w.drain host faults fam (.delete (.builtin .forward) (forwardJump cfg)) 8
  let w := (w.run host faults fam (.flush (.user inputChain))).1
  let w := (w.run host faults fam (.flush (.user forwardChain))).1
  let w := (w.run host faults fam (.deleteChain inputChain)).1
  (w.run host faults fam (.deleteChain forwardChain)).1

def World.teardown (w : World H) : World H :=
  families.foldl (World.teardownTable host faults cfg) w

/-- The commands of `applyTable` up to the jump from `INPUT`, with their errors. -/
def tableCommands (grants : List PortGrant) (fam : Family) :
    List (Command String (Match H) × String) :=
  [(.newChain inputChain, fam.bin ++ " create " ++ inputChain),
    (.newChain forwardChain, fam.bin ++ " create " ++ forwardChain),
    (.append (.user inputChain) conntrackRule, fam.bin ++ " conntrack rule"),
    (.append (.user inputChain) (icmpRule fam), fam.bin ++ " icmp rule")] ++
  (cfg.allowedTCPPorts.filter (0 < ·)).map (fun port =>
    (.append (.user inputChain) (portRule port), fam.bin ++ " allow tcp/" ++ toString port)) ++
  (portGrantRules inputChain grants fam).map (·, fam.bin ++ " port grant input rule") ++
  [(.append (.user inputChain) dropRule, fam.bin ++ " input drop")] ++
  (portGrantRules forwardChain grants fam).map (·, fam.bin ++ " port grant forward rule") ++
  [(.append (.user forwardChain) dropRule, fam.bin ++ " forward drop"),
    (.insert (.builtin .input) (inputJump cfg), fam.bin ++ " install INPUT jump")]

/-- `applyTable`. The jump from `INPUT` is taken back if the one from `FORWARD` fails. -/
def World.applyTable (w : World H) (grants : List PortGrant) (fam : Family) :
    World H × Option String :=
  match w.runAll host faults fam (tableCommands cfg grants fam) with
  | (w, some e) => (w, some e)
  | (w, none) =>
      match w.run host faults fam (.insert (.builtin .forward) (forwardJump cfg)) with
      | (w, true) => (w, none)
      | (w, false) =>
          ((w.run host faults fam (.delete (.builtin .input) (inputJump cfg))).1,
            some (fam.bin ++ " install FORWARD jump"))

/-- Apply the tables one after the other, up to the first error. -/
def World.applyTables (w : World H) (grants : List PortGrant) :
    List Family → World H × Option String
  | [] => (w, none)
  | fam :: rest =>
      match w.applyTable host faults cfg grants fam with
      | (w, none) => applyTables w grants rest
      | (w, some e) => (w, some e)

/-- The watchdog's test, up to the first family without the jump. -/
def World.present (w : World H) : List Family → World H × Bool
  | [] => (w, true)
  | fam :: rest =>
      match w.run host faults fam (.check (.builtin .input) (inputJump cfg)) with
      | (w, true) => present w rest
      | (w, false) => (w, false)

end Commands

def intsEqual (a b : List Int) : Bool :=
  a.length = b.length && (a.zip b).all fun x => x.1 = x.2

def grantsEqual (a b : List PortGrant) : Bool :=
  a.length = b.length && (a.zip b).all fun x =>
    x.1.sourceIP = x.2.sourceIP && x.1.sourceIPv6 = x.2.sourceIPv6 && intsEqual x.1.tcp x.2.tcp &&
      intsEqual x.1.udp x.2.udp

section Calls

variable {H : Type} [DecidableEq H] (host : Host H) (faults : Faults H)

/-- `Apply`. The result is the error, if there is one. -/
def Manager.apply (m : Manager) (w : World H) : Manager × World H × Option String :=
  match families.find? (!faults.onPath ·) with
  | some fam => (m, w, some ("firewall: " ++ fam.bin ++ " not on PATH"))
  | none =>
      if m.cfg.iface = "" then (m, w, some "firewall: empty iface")
      else
        match (w.teardown host faults m.cfg).applyTables host faults m.cfg m.portGrants families with
        | (w, some e) => (m, w.teardown host faults m.cfg, some e)
        | (w, none) => ({ m with enabled := true }, w, none)

/-- `SetPortGrants`. The grants are remembered before they are applied. -/
def Manager.setPortGrants (m : Manager) (w : World H) (grants : List PortGrant) :
    Manager × World H × Option String :=
  if grantsEqual m.portGrants grants then (m, w, none)
  else
    let m := { m with portGrants := grants }
    if m.enabled then m.apply host faults w else (m, w, none)

/-- One tick of the watchdog. -/
def Manager.tick (m : Manager) (w : World H) : Manager × World H × Option String :=
  if m.enabled then
    match w.present host faults m.cfg families with
    | (w, true) => (m, w, none)
    | (w, false) => m.apply host faults w
  else (m, w, none)

def Manager.stop (m : Manager) (w : World H) : Manager × World H :=
  if m.enabled then ({ m with enabled := false }, w.teardown host faults m.cfg) else (m, w)

/-- The grants that the agent takes from the access list. -/
def aclGrants (store : Acl.Store) : List PortGrant :=
  store.portGrants.map fun g =>
    { sourceIP := g.tunnelIP, sourceIPv6 := g.tunnelIPv6, tcp := g.tcp, udp := g.udp }

/-- `reconcileFirewallGrants` of an agent with a firewall. -/
def Manager.reconcileFirewallGrants (m : Manager) (w : World H) (store : Acl.Store) :
    Manager × World H × Option String :=
  m.setPortGrants host faults w (aclGrants store)

end Calls

inductive Call where
  | apply
  | setPortGrants (grants : List PortGrant)
  | reconcileFirewallGrants (store : Acl.Store)
  | tick
  | stop

/-- A call and what goes wrong during it. -/
structure Input (H : Type) where
  call : Call
  faults : Faults H

/-- The manager and the tables between two calls. `visited` and `result` are of the last
call. -/
structure System (H : Type) where
  manager : Manager
  tables : Tables H
  visited : List (Tables H)
  result : Option String

variable {H : Type} [DecidableEq H]

def Manager.handle (host : Host H) (m : Manager) (w : World H) (input : Input H) :
    Manager × World H × Option String :=
  match input.call with
  | .apply => m.apply host input.faults w
  | .setPortGrants grants => m.setPortGrants host input.faults w grants
  | .reconcileFirewallGrants store => m.reconcileFirewallGrants host input.faults w store
  | .tick => m.tick host input.faults w
  | .stop =>
      let (m, w) := m.stop host input.faults w
      (m, w, none)

def System.step (host : Host H) (s : System H) (input : Input H) : System H :=
  let (m, w, result) := s.manager.handle host ⟨s.tables, []⟩ input
  { manager := m, tables := w.tables, visited := w.visited, result := result }

end Firewall
