import AtreoAgent.Atreolink.Types
import AtreoAgent.Net.IP
import Mathlib.Data.List.AList

/-! The client that opens ports on the gateway (package `upnp`). It keeps one IPv4 mapping and
one IPv6 pinhole for each address. The PCP nonces are written to a file, as a renewal has to
repeat the nonce of the mapping it renews. -/
namespace Upnp

open Codec Net

/-- Twelve octets; all zero for a mapping that was not made with PCP. -/
abbrev Nonce := Bytes

def zeroNonce : Nonce := List.replicate 12 0

/-- Seconds. -/
def mappingLeaseSeconds : Nat := 1800

/-- Seconds. -/
def pinholeLeaseSeconds : Nat := 3600

/-- A port number as it goes into a request. -/
def uint16 (n : Nat) : Nat := n % 65536

/-- The connection services of a gateway that map ports. -/
inductive Service where
  | ipConn2
  | ipConn1
  | ppp
  deriving DecidableEq, Repr

/-- How the IPv4 mapping is removed. -/
inductive Cleanup where
  | pcp (gateway : String) (nonce : Nonce)
  | natpmp (gateway : String)
  | service (service : Service)
  deriving DecidableEq, Repr

/-- How a pinhole is removed; the gateway of a loaded one is looked up then. -/
inductive Remover where
  | pcp (gateway : String)
  | loaded
  | upnp (uid : Nat)
  deriving DecidableEq, Repr

structure Pinhole where
  nonce : Nonce
  remove : Remover
  deriving DecidableEq, Repr

structure Client where
  internalPort : Nat
  externalPort : Nat
  description : String
  pcpEnabled : Bool
  v4cleanup : Option Cleanup
  lastExternalIP : String
  v6pinholes : AList fun _ : String => Pinhole
  /-- The nonce of the IPv4 mapping, with the internal address it is for. -/
  v4nonce : Option (Nonce × String)
  /-- The entries of the state file, if there is one to write to. -/
  stateFile : Option (List (String × String))

def newClient (internalPort : Nat) : Client where
  internalPort := internalPort
  externalPort := internalPort
  description := "atreoAGENT WireGuard"
  pcpEnabled := true
  v4cleanup := none
  lastExternalIP := ""
  v6pinholes := ∅
  v4nonce := none
  stateFile := none

def hexEncode (bs : Bytes) : String :=
  String.ofList (bs.flatMap fun b =>
    [hexDigit (b.toNat / 16), hexDigit (b.toNat % 16)].map fun d => Char.ofNat d.toNat)

namespace Client

def setPCPEnabled (c : Client) (enabled : Bool) : Client := { c with pcpEnabled := enabled }

/-- One entry of the state file. Addresses of the two families go to different places. -/
def loadNonce (c : Client) (entry : String × String) : Client :=
  match hexDecode (utf8 entry.2), parseIP entry.1 with
  | some nonce, some ip =>
      if nonce.length ≠ 12 then c
      else if (to4 ip).isSome then { c with v4nonce := some (nonce, entry.1) }
      else { c with v6pinholes := c.v6pinholes.insert entry.1 ⟨nonce, .loaded⟩ }
  | _, _ => c

def loadNonces (c : Client) (entries : List (String × String)) : Client :=
  entries.foldl loadNonce c

/-- `SetStatePath`, given the entries that the file holds. -/
def setStatePath (c : Client) (entries : List (String × String)) : Client :=
  { c with stateFile := some entries }.loadNonces entries

/-- The entries that are written: every nonce that is not zero. -/
def nonceEntries (c : Client) : List (String × String) :=
  (c.v4nonce.toList.filter fun n => n.2 ≠ "" && n.1 ≠ zeroNonce).map
      (fun n => (n.2, hexEncode n.1)) ++
    (c.v6pinholes.entries.filter fun e => e.2.nonce ≠ zeroNonce).map
      fun e => (e.1, hexEncode e.2.nonce)

/-- `persistNonces`, if the file can be written. -/
def persistNonces (c : Client) (written : Bool) : Client :=
  { c with stateFile := if written then c.stateFile.map fun _ => c.nonceEntries else c.stateFile }

/-- No mapping is active until one has been made. -/
def publicEndpoint (c : Client) : String × Nat :=
  if c.v4cleanup.isNone then ("", 0) else (c.lastExternalIP, c.externalPort)

end Client

end Upnp
