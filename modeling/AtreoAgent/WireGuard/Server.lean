import AtreoAgent.WireGuard.Allocator

/-! The peer table of the WireGuard server (package `wireguard`). Keys and addresses
are checked before they reach the `wg` and `ip` commands; whether a command succeeds
is given by the environment. -/
namespace WireGuard

open Codec Atreolink Net

structure Peer where
  publicKey : String
  tunnelIP : String
  tunnelIPv6 : String
  deriving DecidableEq, Repr

abbrev Peers := StringMap Peer

/-- The fixed part of the server. -/
structure Server where
  subnet : String
  serverIPv6 : String
  subnetV6 : String
  iface : String
  publicKey : String
  listenPort : Nat
  deriving DecidableEq, Repr

inductive PeerError where
  /-- `wg pubkey: …` -/
  | pubkey
  /-- `tunnel ip: …` -/
  | tunnelIP
  /-- `add peer: …` -/
  | command
  deriving DecidableEq, Repr

/-- A leading `-` is refused to defeat flag injection. -/
def validateWGPublicKey (s : String) : Bool :=
  s ≠ "" && s.toList.head? ≠ some '-' && (decode64 s).map List.length = some 32

def validateTunnelIPv4 (s : String) : Bool :=
  match parseIP s with
  | some ip => (to4 ip).isSome
  | none => false

def validateTunnelIPv6 (s : String) : Bool :=
  match parseIP s with
  | some ip => (to4 ip).isNone
  | none => false

/-- The IPv6 overlay address takes over the last octet of the IPv4 one. -/
def deriveTunnelIPv6 (serverIPv6 tunnelIPv4 : String) : Option String := do
  let v4 ← parseIP tunnelIPv4
  let quad ← to4 v4
  let base ← parseIP serverIPv6
  if (to4 base).isSome then none
  else some (ipString (base.set 15 (quad.getD 3 0)))

namespace Server

/-- `TunnelIPv6`: empty when there is no IPv6 overlay or the derivation fails. -/
def tunnelIPv6 (srv : Server) (tunnelIPv4 : String) : String :=
  if srv.serverIPv6 = "" then ""
  else
    match deriveTunnelIPv6 srv.serverIPv6 tunnelIPv4 with
    | some v6 => if validateTunnelIPv6 v6 then v6 else ""
    | none => ""

def allowedIPs (srv : Server) : String :=
  if srv.subnetV6 ≠ "" then srv.subnet ++ "," ++ srv.subnetV6 else srv.subnet

/-- The route set of one peer. -/
def peerRoutes (srv : Server) (tunnelIP : String) : String :=
  let tunnelIPv6 := srv.tunnelIPv6 tunnelIP
  if tunnelIPv6 ≠ "" then tunnelIP ++ "/32" ++ "," ++ tunnelIPv6 ++ "/128" else tunnelIP ++ "/32"

/-- `AddPeer`. Only a failure of `wg set` counts; failing route commands are logged. -/
def addPeer (srv : Server) (exec : List String → Bool) (peers : Peers) (pubKey tunnelIP : String) :
    Except PeerError Peers :=
  if !validateWGPublicKey pubKey then .error .pubkey
  else if !validateTunnelIPv4 tunnelIP then .error .tunnelIP
  else if !exec ["wg", "set", srv.iface, "peer", pubKey, "allowed-ips", srv.peerRoutes tunnelIP] then
    .error .command
  else .ok (peers.insert pubKey ⟨pubKey, tunnelIP, srv.tunnelIPv6 tunnelIP⟩)

end Server

/-- `RemovePeer`. Command failures are logged, the entry goes in any case. -/
def removePeer (peers : Peers) (pubKey : String) : Peers := peers.erase pubKey

end WireGuard
