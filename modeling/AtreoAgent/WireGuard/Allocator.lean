import AtreoAgent.Atreolink.Types
import AtreoAgent.Net.IP

/-! Tunnel addresses (package `wireguard`). The allocator binds a client key to an
address of one /24. The network, broadcast and server addresses are reserved, and
hosts 2 to 254 are handed out in order. -/
namespace WireGuard

open Codec Atreolink Net

/-- What an allocator is made for: the text in front of the last octet and the address of the
server. Neither is checked. -/
structure Pool where
  subnetPrefix : String
  serverIP : String
  deriving DecidableEq, Repr

/-- The addresses of the overlay. `subnetPrefix` is the text of the first three octets
and the server has host number 1, as `overlay` validates. -/
structure Subnet extends Pool where
  octets : ∃ a b c : UInt8, subnetPrefix.toList = formatIPv4 [a, b, c]
  gateway : serverIP = subnetPrefix ++ "." ++ toString 1

structure Allocator where
  allocated : StringMap String
  usedIPs : Finset String

namespace Allocator

/-- The address of a key, or the empty string. -/
def lookup (a : Allocator) (clientPubKey : String) : String :=
  (a.allocated.lookup clientPubKey).getD ""

def bind (a : Allocator) (clientPubKey ip : String) : Allocator :=
  { allocated := a.allocated.insert clientPubKey ip, usedIPs := insert ip a.usedIPs }

def release (a : Allocator) (clientPubKey : String) : Allocator :=
  match a.allocated.lookup clientPubKey with
  | some ip =>
      { allocated := a.allocated.erase clientPubKey, usedIPs := a.usedIPs.erase ip }
  | none => a

end Allocator

namespace Pool

variable (p : Pool)

/-- The address with last octet `i`. -/
def host (i : Nat) : String := p.subnetPrefix ++ "." ++ toString i

/-- The addresses `allocate` tries, in order. -/
def hosts : List String := (List.range' 2 253).map p.host

def reserved : Finset String := {p.serverIP, p.host 0, p.host 255}

/-- The text starts as those of the subnet do. -/
def covers (ip : String) : Bool := (p.subnetPrefix ++ ".").toList.isPrefixOf ip.toList

/-- A canonical address of the /24 that is not reserved. -/
def inSubnet (ip : String) : Bool :=
  match parseIP ip with
  | none => false
  | some parsed =>
      (to4 parsed).isSome && ipString parsed = ip && p.covers ip &&
        !(ip = p.serverIP || ip = p.host 0 || ip = p.host 255)

/-- A fresh allocator, before its state file is read. -/
def fresh : Allocator := { allocated := ∅, usedIPs := p.reserved }

/-- `Allocate`: the address already held, or the first free host. `none` stands for
`no available IPs in subnet`. -/
def allocate (a : Allocator) (clientPubKey : String) : Option (Allocator × String) :=
  match a.allocated.lookup clientPubKey with
  | some ip => some (a, ip)
  | none => (p.hosts.find? (· ∉ a.usedIPs)).map fun ip => (a.bind clientPubKey ip, ip)

def markUsed (a : Allocator) (clientPubKey ip : String) : Allocator :=
  if !p.inSubnet ip || ip ∈ a.usedIPs then a
  else if clientPubKey = "" then { a with usedIPs := insert ip a.usedIPs }
  else a.bind clientPubKey ip

/-- `TryAdopt`: `some` when the key holds the address afterwards. -/
def tryAdopt (a : Allocator) (clientPubKey ip : String) : Option Allocator :=
  if clientPubKey = "" || !p.inSubnet ip then none
  else
    match a.allocated.lookup clientPubKey with
    | some held => if held = ip then some a else none
    | none =>
        if (∃ pk ∈ a.allocated.keys, a.allocated.lookup pk = some ip ∧ pk ≠ clientPubKey) ∨
            ip ∈ a.usedIPs then none
        else some (a.bind clientPubKey ip)

def loadEntry (a : Allocator) (e : String × String) : Allocator :=
  if p.covers e.2 && e.2 ∉ a.usedIPs then a.bind e.1 e.2 else a

/-- Entries of the state file, in the order the map is walked. -/
def load (a : Allocator) (entries : List (String × String)) : Allocator := entries.foldl p.loadEntry a

end Pool

/-! The same on a checked overlay. -/
namespace Allocator

abbrev new (net : Subnet) : Allocator := net.fresh

abbrev allocate (net : Subnet) (a : Allocator) (clientPubKey : String) := net.toPool.allocate a clientPubKey

abbrev markUsed (net : Subnet) (a : Allocator) (clientPubKey ip : String) : Allocator :=
  net.toPool.markUsed a clientPubKey ip

abbrev tryAdopt (net : Subnet) (a : Allocator) (clientPubKey ip : String) : Option Allocator :=
  net.toPool.tryAdopt a clientPubKey ip

abbrev load (net : Subnet) (a : Allocator) (entries : List (String × String)) : Allocator :=
  net.toPool.load a entries

end Allocator

end WireGuard
