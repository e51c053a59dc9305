import AtreoAgent.Netfilter.Verdict

/-! The rules that confine the peers on the WireGuard interface to the proxy ports and to
the ports granted to them, in both address families, and the policy they stand for. The
host has rules of its own, with conditions of any kind. -/
namespace Firewall

open Netfilter

def inputChain : String := "ATREOAGENT-WG-INPUT"

def forwardChain : String := "ATREOAGENT-WG-FORWARD"

/-- The chains are the agent's own. -/
def ownChain (c : String) : Bool := c = inputChain || c = forwardChain

/-- The address families. Each has its tables and its binary, and both are driven through the same
rules. -/
inductive Family where
  | v4
  | v6
  deriving DecidableEq, Repr

inductive Proto where
  | tcp
  | udp
  | icmp
  | icmpv6
  | other (number : Nat)
  deriving DecidableEq, Repr

def Family.bin : Family → String
  | .v4 => "iptables"
  | .v6 => "ip6tables"

def Family.icmpProto : Family → Proto
  | .v4 => .icmp
  | .v6 => .icmpv6

/-- The families in the order in which they are driven. -/
def families : List Family := [.v4, .v6]

/-- A packet, as far as the rules look at it. -/
structure Packet where
  iface : String
  /-- Its connection is related or established. -/
  tracked : Bool
  proto : Proto
  src : List UInt8
  dport : Nat
  /-- What only rules of the host look at. -/
  rest : List UInt8
  deriving DecidableEq, Repr

/-- The condition of a rule: what the agent uses, and one of the host. -/
structure Match (H : Type) where
  iface : Option String
  ctstate : Bool
  source : Option String
  proto : Option Proto
  dport : Option Int
  host : Option H
  deriving DecidableEq, Repr

/-- What the binaries and the kernel of the host make of the conditions. `source` is how
a family reads the text of a source address. -/
structure Host (H : Type) where
  holds : H → Packet → Bool
  source : Family → String → Option (List UInt8 → Bool)

/-- A name that ends in `+` stands for the interfaces whose names start with what is
before it. -/
def matchesIface (pattern name : String) : Bool :=
  if pattern.toList.getLast? = some '+' then pattern.toList.dropLast.isPrefixOf name.toList
  else pattern = name

section Conditions

variable {H : Type} (host : Host H) (fam : Family)

def Host.reads (text : String) (src : List UInt8) : Bool := (host.source fam text).any (· src)

def Match.holds (m : Match H) (p : Packet) : Bool :=
  m.iface.all (matchesIface · p.iface) && (!m.ctstate || p.tracked) &&
    m.source.all (host.reads fam · p.src) && m.proto.all (· = p.proto) &&
    m.dport.all (· = (p.dport : Int)) && m.host.all (host.holds · p)

/-- The binary accepts ports up to 65535 and the source addresses it can read. -/
def Match.valid (m : Match H) : Bool :=
  m.dport.all (fun port => 0 ≤ port ∧ port ≤ 65535) && m.source.all fun s => (host.source fam s).isSome

def Match.any : Match H :=
  { iface := none, ctstate := false, source := none, proto := none, dport := none, host := none }

end Conditions

/-- The interface has a name and not a pattern. -/
structure Config where
  iface : String
  allowedTCPPorts : List Int
  plain : iface.toList.getLast? ≠ some '+'

/-- The raw host ports that one peer may reach. Each of its addresses is for the table of its own
family only. -/
structure PortGrant where
  sourceIP : String
  sourceIPv6 : String
  tcp : List Int
  udp : List Int
  deriving DecidableEq, Repr

def PortGrant.source (g : PortGrant) : Family → String
  | .v4 => g.sourceIP
  | .v6 => g.sourceIPv6

section Rules

variable {H : Type}

/-- What comes in on the WireGuard interface goes through a chain of the agent. -/
def jumpRule (cfg : Config) (chain : String) : Rule String (Match H) :=
  ⟨{ Match.any with iface := some cfg.iface }, .jump chain⟩

/-- Return traffic. -/
def conntrackRule : Rule String (Match H) := ⟨{ Match.any with ctstate := true }, .accept⟩

/-- Diagnostics. -/
def icmpRule (fam : Family) : Rule String (Match H) :=
  ⟨{ Match.any with proto := some fam.icmpProto }, .accept⟩

/-- A port of the proxy, open to every peer. -/
def portRule (port : Int) : Rule String (Match H) :=
  ⟨{ Match.any with proto := some .tcp, dport := some port }, .accept⟩

/-- A port that is open to one source address. -/
def grantRule (src : String) (proto : Proto) (port : Int) : Rule String (Match H) :=
  ⟨{ Match.any with source := some src, proto := some proto, dport := some port }, .accept⟩

def dropRule : Rule String (Match H) := ⟨Match.any, .drop⟩

/-- The rules of one grant in one family. Ports that are not positive are skipped. -/
def PortGrant.rules (fam : Family) (g : PortGrant) : List (Rule String (Match H)) :=
  if g.source fam = "" then []
  else
    (g.tcp.filter (0 < ·)).map (grantRule (g.source fam) .tcp) ++
      (g.udp.filter (0 < ·)).map (grantRule (g.source fam) .udp)

def grantRules (fam : Family) (grants : List PortGrant) : List (Rule String (Match H)) :=
  grants.flatMap (PortGrant.rules fam)

/-- The commands that add the grants to a chain. -/
def portGrantRules (chain : String) (grants : List PortGrant) (fam : Family) :
    List (Command String (Match H)) :=
  (grantRules fam grants).map (Command.append (.user chain))

/-- What is accepted in front of the terminal drop. -/
def acceptRules (cfg : Config) (grants : List PortGrant) (fam : Family) :
    List (Rule String (Match H)) :=
  conntrackRule :: icmpRule fam ::
    ((cfg.allowedTCPPorts.filter (0 < ·)).map portRule ++ grantRules fam grants)

/-- The content of the agent's chains. -/
def inputRules (cfg : Config) (grants : List PortGrant) (fam : Family) :
    List (Rule String (Match H)) := acceptRules cfg grants fam ++ [dropRule]

/-- Published ports of containers are reached through `FORWARD`, so the grants stand here as well;
the ports of the proxy do not. -/
def forwardRules (grants : List PortGrant) (fam : Family) : List (Rule String (Match H)) :=
  grantRules fam grants ++ [dropRule]

end Rules

section Policy

variable {H : Type} (host : Host H) (fam : Family) (p : Packet)

/-- The port is positive and in the list. -/
def portListed (ports : List Int) : Bool :=
  ports.any fun port => 0 < port && port = (p.dport : Int)

def PortGrant.covers (g : PortGrant) : Bool :=
  g.source fam ≠ "" && host.reads fam (g.source fam) p.src &&
    ((p.proto = .tcp && portListed p g.tcp) || (p.proto = .udp && portListed p g.udp))

/-- A grant covers the packet. This is what peers may send through the host. -/
def granted (grants : List PortGrant) : Bool := grants.any (·.covers host fam p)

/-- What peers may send to the host. -/
def permitted (cfg : Config) (grants : List PortGrant) : Bool :=
  p.tracked || p.proto = fam.icmpProto || (p.proto = .tcp && portListed p cfg.allowedTCPPorts) ||
    granted host fam p grants

def verdict (allowed : Bool) : Verdict := if allowed then .accept else .drop

end Policy

section Semantics

variable {H : Type} {host : Host H} {fam : Family} {p : Packet}

theorem matchesIface_iff {cfg : Config} {name : String} :
    matchesIface cfg.iface name = true ↔ name = cfg.iface := by
  rw [matchesIface, if_neg cfg.plain, decide_eq_true_iff, eq_comm]

theorem jumpRule_holds {cfg : Config} {chain : String} :
    (jumpRule (H := H) cfg chain).cond.holds host fam p = true ↔ p.iface = cfg.iface := by
  simp [jumpRule, Match.holds, Match.any, matchesIface_iff]

@[simp] theorem conntrackRule_holds :
    (conntrackRule (H := H)).cond.holds host fam p = p.tracked := by
  simp [conntrackRule, Match.holds, Match.any]

@[simp] theorem icmpRule_holds :
    (icmpRule (H := H) fam).cond.holds host fam p = decide (p.proto = fam.icmpProto) := by
  simp [icmpRule, Match.holds, Match.any, eq_comm]

@[simp] theorem portRule_holds (port : Int) : (portRule (H := H) port).cond.holds host fam p =
    (decide (p.proto = .tcp) && decide (port = (p.dport : Int))) := by
  simp [portRule, Match.holds, Match.any, eq_comm]

@[simp] theorem grantRule_holds (src : String) (proto : Proto) (port : Int) :
    (grantRule (H := H) src proto port).cond.holds host fam p =
      (host.reads fam src p.src && (decide (p.proto = proto) && decide (port = (p.dport : Int)))) := by
  simp [grantRule, Match.holds, Match.any, eq_comm, Bool.and_assoc]

@[simp] theorem dropRule_holds : (dropRule (H := H)).cond.holds host fam p = true := rfl

/-- The positive ports of a list, tried one after the other. -/
theorem any_filter_ports (b : Bool) (ports : List Int) :
    (ports.filter (0 < ·)).any (fun port => b && decide (port = (p.dport : Int))) =
      (b && portListed p ports) := by
  rw [List.any_filter, portListed]
  induction ports with
  | nil => simp
  | cons port ports ih =>
      rw [List.any_cons, List.any_cons, ih]
      cases b <;> cases decide (0 < port) <;> rfl

theorem any_rules (g : PortGrant) :
    (g.rules (H := H) fam).any (·.cond.holds host fam p) = g.covers host fam p := by
  unfold PortGrant.rules PortGrant.covers
  split
  next hNone => simp [hNone]
  next hSource =>
    simp only [List.any_append, List.any_map, Function.comp_def, grantRule_holds]
    simp only [← Bool.and_assoc, any_filter_ports]
    simp only [Bool.and_assoc, ← Bool.and_or_distrib_left, hSource, ne_eq, not_false_eq_true,
      decide_true, Bool.true_and]

/-- The rules of the grants are met by what the grants cover. -/
theorem any_grantRules (grants : List PortGrant) :
    (grantRules (H := H) fam grants).any (·.cond.holds host fam p) = granted host fam p grants := by
  rw [grantRules, List.any_flatMap, granted]
  simp only [any_rules]

theorem any_acceptRules (cfg : Config) (grants : List PortGrant) :
    (acceptRules (H := H) cfg grants fam).any (·.cond.holds host fam p) =
      permitted host fam p cfg grants := by
  simp only [acceptRules, permitted, List.any_cons, List.any_append, List.any_map,
    Function.comp_def, conntrackRule_holds, icmpRule_holds, portRule_holds, any_filter_ports,
    any_grantRules, Bool.or_assoc]

theorem target_grantRules {grants : List PortGrant} {r : Rule String (Match H)}
    (h : r ∈ grantRules fam grants) : r.target = .accept := by
  obtain ⟨g, _, hr⟩ := List.mem_flatMap.mp h
  unfold PortGrant.rules at hr
  split at hr
  · cases hr
  · rcases List.mem_append.mp hr with hTCP | hUDP
    · obtain ⟨port, _, rfl⟩ := List.mem_map.mp hTCP
      rfl
    · obtain ⟨port, _, rfl⟩ := List.mem_map.mp hUDP
      rfl

theorem target_acceptRules {cfg : Config} {grants : List PortGrant} {r : Rule String (Match H)}
    (h : r ∈ acceptRules cfg grants fam) : r.target = .accept := by
  rcases List.mem_cons.mp h with rfl | h
  · rfl
  rcases List.mem_cons.mp h with rfl | h
  · rfl
  rcases List.mem_append.mp h with hPort | hGrant
  · obtain ⟨port, _, rfl⟩ := List.mem_map.mp hPort
    rfl
  · exact target_grantRules hGrant

variable {sub : String → Option Outcome}

/-- Rules that accept and a last one that drops always decide. -/
theorem walk_accepts_drop {rs : List (Rule String (Match H))} (h : ∀ r ∈ rs, r.target = .accept) :
    walk (Match.holds host fam) sub p (rs ++ [dropRule]) =
      some (.decided (verdict (rs.any (·.cond.holds host fam p)))) := by
  rw [walk_accepts _ h, walk, dropRule_holds, verdict]
  split
  · rfl
  · rfl

theorem walk_inputRules (cfg : Config) (grants : List PortGrant) :
    walk (Match.holds host fam) sub p (inputRules cfg grants fam) =
      some (.decided (verdict (permitted host fam p cfg grants))) := by
  rw [inputRules, walk_accepts_drop fun r hr => target_acceptRules hr, any_acceptRules]

theorem walk_forwardRules (grants : List PortGrant) :
    walk (Match.holds host fam) sub p (forwardRules grants fam) =
      some (.decided (verdict (granted host fam p grants))) := by
  rw [forwardRules, walk_accepts_drop fun r hr => target_grantRules hr, any_grantRules]

end Semantics

end Firewall
