import AtreoAgent.Acl.Access
import AtreoAgent.Net.Cidr
import AtreoAgent.Proxy.Slug

/-! The forward-auth endpoint (`auth.go`, `trusted.go`). A reverse proxy asks whether a
request may pass. What it says of the client counts only if the proxy is trusted, and the
client is then taken to be the first address in `X-Forwarded-For`. -/
namespace Proxy

open Codec Net

/-- Texts that are no network are left out. -/
def parseTrustedNetworks (cidrs : List String) : List IPNet := cidrs.filterMap parseCIDR

def isTrusted (ip : String) (trusted : List IPNet) : Bool :=
  match parseIP ip with
  | none => false
  | some parsed => trusted.any (·.contains parsed)

/-- An address is trusted by a text of the list that names a network with it. -/
theorem isTrusted_iff {cidrs : List String} {x : String} {ip : IP} (hx : parseIP x = some ip) :
    isTrusted x (parseTrustedNetworks cidrs) = true ↔
      ∃ c ∈ cidrs, ∃ n, parseCIDR c = some n ∧ n.contains ip = true := by
  simp only [isTrusted, hx, parseTrustedNetworks, List.any_eq_true, List.mem_filterMap]
  constructor
  · rintro ⟨n, ⟨c, hc, hNet⟩, hIn⟩
    exact ⟨c, hc, n, hNet, hIn⟩
  · rintro ⟨c, hc, n, hNet, hIn⟩
    exact ⟨n, ⟨c, hc, hNet⟩, hIn⟩

structure AuthServer where
  aclStore : Acl.Store
  registry : Option Certs.Registry
  trustedNetworks : List IPNet
  trustedProxies : List IPNet

def newAuthServer (aclStore : Acl.Store) (registry : Option Certs.Registry)
    (trustedCIDRs trustedProxyCIDRs : List String) : AuthServer where
  aclStore := aclStore
  registry := registry
  trustedNetworks := parseTrustedNetworks trustedCIDRs
  trustedProxies := parseTrustedNetworks trustedProxyCIDRs

/-- The values of each header, in the order of their lines. -/
structure Request where
  remoteAddr : String
  host : String
  forwardedFor : List String := []
  realIP : List String := []
  forwardedHost : List String := []
  deriving DecidableEq, Repr

/-- `Header.Get`: the first value. -/
def headerGet (values : List String) : String := values.headD ""

structure Response where
  status : Nat
  /-- `X-Auth-User`. -/
  user : Option String := none
  /-- `X-Auth-Member-ID`. -/
  memberID : Option String := none
  /-- `X-Auth-Role`. -/
  role : Option String := none
  body : String
  deriving DecidableEq, Repr

/-- The first of several addresses. -/
def firstAddress (addrs : String) : String := trimSpace (before ',' addrs)

def Request.remoteIP (r : Request) : String := (splitHostPort r.remoteAddr).elim "" Prod.fst

namespace AuthServer

def fromProxy (s : AuthServer) (r : Request) : Bool :=
  r.remoteIP ≠ "" && isTrusted r.remoteIP s.trustedProxies

/-- The client a request is taken to come from. -/
def sourceIP (s : AuthServer) (r : Request) : String :=
  if s.fromProxy r then
    let forwarded := headerGet r.forwardedFor
    let first := firstAddress (if forwarded = "" then headerGet r.realIP else forwarded)
    if first = "" then r.remoteIP else first
  else r.remoteIP

/-- The host a request is taken to be for. -/
def requestHost (s : AuthServer) (r : Request) : String :=
  if s.fromProxy r ∧ headerGet r.forwardedHost ≠ "" then headerGet r.forwardedHost else r.host

def suffixes (s : AuthServer) : List String := s.registry.elim [] (·.suffixes)

def serveHTTP (lower : Char → Char) (s : AuthServer) (r : Request) : Response :=
  let sourceIP := s.sourceIP r
  if sourceIP = "" then { status := 400, body := "missing source IP\n" }
  else if isTrusted sourceIP s.trustedNetworks then
    { status := 200, user := some "local", role := some "admin", body := "ok" }
  else
    let slug := extractSlug (s.requestHost r) s.suffixes
    if slug = "" then { status := 403, body := "unknown host\n" }
    else
      match s.aclStore.isAppAllowed lower sourceIP slug with
      | none => { status := 403, body := "forbidden\n" }
      | some _ =>
          match s.aclStore.lookupByTunnelIP sourceIP with
          | none => { status := 200, body := "ok" }
          | some member =>
              { status := 200, user := some member.memberName, memberID := some member.memberID,
                role := some member.role, body := "ok" }

end AuthServer

/-- Whether the request may pass, and whom the headers name. -/
structure Decision where
  allowed : Bool
  user : Option String
  memberID : Option String
  role : Option String
  deriving DecidableEq, Repr

def Response.decision (w : Response) : Decision := ⟨w.status = 200, w.user, w.memberID, w.role⟩

/-- The request as a proxy passes it on: it puts the address of its peer behind what the
client sent in `X-Forwarded-For`. -/
def Request.forwarded (r : Request) (client : List String) (peer : String) : Request :=
  { r with forwardedFor := [", ".intercalate (client ++ [peer])] }

/-- The member whom the access list lets through to the app. -/
def AuthServer.admitted (lower : Char → Char) (s : AuthServer) (ip slug : String) :
    Option (String × String × String) := do
  let _ ← s.aclStore.isAppAllowed lower ip slug
  let member ← s.aclStore.lookupByTunnelIP ip
  return (member.memberName, member.memberID, member.role)

/-- The two addresses are both in a trusted network, or neither is and the access list says
the same of both for the app of the host. -/
def AuthServer.SameStanding (lower : Char → Char) (s : AuthServer) (host a b : String) : Prop :=
  isTrusted a s.trustedNetworks = isTrusted b s.trustedNetworks ∧
    (isTrusted a s.trustedNetworks = false → extractSlug host s.suffixes ≠ "" →
      s.admitted lower a (extractSlug host s.suffixes) =
        s.admitted lower b (extractSlug host s.suffixes))

/-- The address that the client names for itself: the first one it sent, and the address of
the peer if it sent none. -/
def Request.claimedIP (r : Request) (client : List String) (peer : String) : String :=
  let first := firstAddress (client.headD peer)
  if first = "" then r.remoteIP else first

theorem intercalate_forwarded (x : String) (xs : List String) (peer : String) :
    ", ".intercalate (x :: xs ++ [peer]) =
      x ++ (String.singleton ',' ++ (" " ++ ", ".intercalate (xs ++ [peer]))) := by
  obtain ⟨y, ys, hRest⟩ := List.exists_cons_of_ne_nil
    (List.append_ne_nil_of_right_ne_nil xs (List.cons_ne_nil peer []))
  rw [List.cons_append, hRest, String.intercalate_cons_cons]
  simp [← String.toList_inj]

/-- The source of a forwarded request is what the client says it is. -/
theorem AuthServer.sourceIP_forwarded {s : AuthServer} {r : Request}
    (hProxy : s.fromProxy r = true) (client : List String) {peer : String} (hPeer : peer ≠ "") :
    s.sourceIP (r.forwarded client peer) = r.claimedIP client peer := by
  have hFrom : s.fromProxy (r.forwarded client peer) = true := hProxy
  have hValue : headerGet (r.forwarded client peer).forwardedFor =
      ", ".intercalate (client ++ [peer]) := rfl
  have hSome : ", ".intercalate (client ++ [peer]) ≠ "" := by
    cases client with
    | nil => exact hPeer
    | cons x xs =>
        rw [intercalate_forwarded]
        intro hEmpty
        simpa using congrArg String.toList hEmpty
  have hFirst : firstAddress (", ".intercalate (client ++ [peer])) =
      firstAddress (client.headD peer) := by
    cases client with
    | nil => rfl
    | cons x xs =>
        rw [intercalate_forwarded, firstAddress, before_append, firstAddress, List.headD_cons]
  simp only [sourceIP, hFrom, if_true, hValue, if_neg hSome, hFirst, Request.claimedIP]
  rfl

/-- What the answer depends on: the networks the source is in, and what the access list says
of it. -/
theorem AuthServer.decision_serveHTTP (lower : Char → Char) (s : AuthServer) {r : Request}
    (hSource : s.sourceIP r ≠ "") :
    (s.serveHTTP lower r).decision =
      if isTrusted (s.sourceIP r) s.trustedNetworks then ⟨true, some "local", none, some "admin"⟩
      else if extractSlug (s.requestHost r) s.suffixes = "" then ⟨false, none, none, none⟩
      else (s.admitted lower (s.sourceIP r) (extractSlug (s.requestHost r) s.suffixes)).elim
        ⟨false, none, none, none⟩ fun m => ⟨true, some m.1, some m.2.1, some m.2.2⟩ := by
  by_cases hTrusted : isTrusted (s.sourceIP r) s.trustedNetworks = true
  · simp only [serveHTTP, if_neg hSource, hTrusted, if_true, Response.decision, decide_true]
  by_cases hSlug : extractSlug (s.requestHost r) s.suffixes = ""
  · simp only [serveHTTP, if_neg hSource, if_neg hTrusted, hSlug, if_true, Response.decision]
    rfl
  simp only [serveHTTP, if_neg hSource, if_neg hTrusted, if_neg hSlug]
  cases hAllowed : s.aclStore.isAppAllowed lower (s.sourceIP r)
      (extractSlug (s.requestHost r) s.suffixes) with
  | none =>
      rw [admitted, hAllowed]
      rfl
  | some app =>
      obtain ⟨member, hMember, _⟩ := Option.bind_eq_some_iff.mp hAllowed
      simp only [admitted, hAllowed, hMember]
      rfl

/-- Two requests that a trusted proxy passes on for the same peer get the same answer when
the addresses that the clients named for themselves have the same standing. -/
theorem forwarded_decisions_eq_iff (lower : Char → Char) (s : AuthServer) {r : Request}
    (hProxy : s.fromProxy r = true) {peer : String} (hPeer : peer ≠ "")
    (client other : List String) :
    (s.serveHTTP lower (r.forwarded client peer)).decision =
        (s.serveHTTP lower (r.forwarded other peer)).decision ↔
      s.SameStanding lower (s.requestHost r) (r.claimedIP client peer) (r.claimedIP other peer) := by
  have hRemote : r.remoteIP ≠ "" := by
    have hBoth := hProxy
    rw [AuthServer.fromProxy, Bool.and_eq_true, decide_eq_true_eq] at hBoth
    exact hBoth.1
  have hSource : ∀ client, s.sourceIP (r.forwarded client peer) = r.claimedIP client peer ∧
      s.sourceIP (r.forwarded client peer) ≠ "" := by
    intro client
    rw [AuthServer.sourceIP_forwarded hProxy client hPeer]
    refine ⟨rfl, ?_⟩
    rw [Request.claimedIP]
    split
    · exact hRemote
    next hSome => exact hSome
  have hHost : ∀ client, s.requestHost (r.forwarded client peer) = s.requestHost r := fun _ => rfl
  rw [AuthServer.decision_serveHTTP lower s (hSource client).2,
    AuthServer.decision_serveHTTP lower s (hSource other).2, (hSource client).1, (hSource other).1,
    hHost, hHost, AuthServer.SameStanding]
  generalize r.claimedIP client peer = a
  generalize r.claimedIP other peer = b
  generalize extractSlug (s.requestHost r) s.suffixes = slug
  by_cases hSlug : slug = ""
  · cases isTrusted a s.trustedNetworks <;> cases isTrusted b s.trustedNetworks <;> simp [hSlug]
  · cases isTrusted a s.trustedNetworks <;> cases isTrusted b s.trustedNetworks <;>
      cases s.admitted lower a slug <;> cases s.admitted lower b slug <;>
        simp [hSlug, Prod.ext_iff]

def wiki : Atreolink.App :=
  { id := "w", name := "Wiki", slug := "wiki", internalUrl := "", icon := "", type := "proxy"
    port := 0, protocol := "" }

/-- A member with one client. -/
def memberAt (id ip : String) (apps : List Atreolink.App) : Atreolink.MemberACLEntry :=
  { memberID := id, userID := "", memberName := id, email := "", role := "member"
    identityKey := "", joinAttestation := none, admittance := none
    clients := [{ wgPublicKey := id, tunnelIP := ip }], allowedApps := apps, status := "active" }

/-- One member may use the wiki, the other may not. -/
def wikiServer : AuthServer :=
  newAuthServer
    (Acl.Store.rebuildIndexes { Acl.Store.new with
      members := [memberAt "alice" "100.64.0.10" [wiki], memberAt "bob" "100.64.0.11" []] })
    (some ⟨(∅ : AList fun _ : String => Certs.Entry).insert "home.example" {}⟩)
    ["192.168.0.0/16"] ["10.1.2.0/24"]

def wikiRequest : Request := { remoteAddr := "10.1.2.3:443", host := "wiki.home.example" }

/-- The member who may not use the wiki is refused, passes as the other member by sending the
address of the other, and as the administrator by sending one of the local network. -/
theorem client_chooses_identity :
    wikiServer.fromProxy wikiRequest = true ∧
      (wikiServer.serveHTTP Char.toLower (wikiRequest.forwarded [] "100.64.0.11")).decision =
        ⟨false, none, none, none⟩ ∧
      (wikiServer.serveHTTP Char.toLower
          (wikiRequest.forwarded ["100.64.0.10"] "100.64.0.11")).decision =
        ⟨true, some "alice", some "alice", some "member"⟩ ∧
      (wikiServer.serveHTTP Char.toLower
          (wikiRequest.forwarded ["192.168.1.5, 203.0.113.9"] "100.64.0.11")).decision =
        ⟨true, some "local", none, some "admin"⟩ := by
  decide +kernel

/-- What follows the first address makes no difference. -/
theorem later_addresses_ignored :
    (wikiServer.fromProxy wikiRequest = true ∧ "100.64.0.11" ≠ "") ∧
      (wikiServer.serveHTTP Char.toLower
          (wikiRequest.forwarded ["100.64.0.10"] "100.64.0.11")).decision =
        (wikiServer.serveHTTP Char.toLower
          (wikiRequest.forwarded [" 100.64.0.10,192.168.1.5", "::1"] "100.64.0.11")).decision := by
  have hProxy : wikiServer.fromProxy wikiRequest = true := by decide +kernel
  have hClaimed : wikiRequest.claimedIP ["100.64.0.10"] "100.64.0.11" =
      wikiRequest.claimedIP [" 100.64.0.10,192.168.1.5", "::1"] "100.64.0.11" := by
    decide +kernel
  refine ⟨⟨hProxy, by decide⟩,
    (forwarded_decisions_eq_iff Char.toLower wikiServer hProxy (by decide) _ _).mpr ?_⟩
  rw [hClaimed]
  exact ⟨rfl, fun _ _ => rfl⟩

end Proxy
