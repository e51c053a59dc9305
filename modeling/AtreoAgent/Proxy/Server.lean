import AtreoAgent.Proxy.Auth
import AtreoAgent.Tunnel.Portal

/-! The proxy (`server.go`). The host of a request names an app. A client of a trusted network may use
any, another one those that the access list gives to its address; an app behind a raw port is not
proxied, but the client is sent to the port. The access list may change between two questions
to it. -/
namespace Proxy

open Codec Net Atreolink Acl Machine

/-- The variants of the error page, with the statuses 400, 404, 403 and 502. -/
inductive ErrorKind where
  | badRequest | notFound | forbidden | badGateway
  deriving DecidableEq, Repr

structure WebRequest extends Request where
  method : String
  path : String
  rawQuery : String
  /-- The address on which the connection was accepted. -/
  localAddr : Option String
  deriving DecidableEq, Repr

structure Location where
  scheme : String
  host : String
  path : String
  rawQuery : String
  deriving DecidableEq, Repr

inductive Answer where
  | page (kind : ErrorKind)
  /-- The answer of a reserved host. -/
  | noContent (allowOrigin : Option String)
  | net (allowOrigin : Option String) (via host : String)
  /-- Status 307. -/
  | redirect (location : Location)
  /-- The request is passed on to the internal URL of the app. -/
  | forward (app : App)
  deriving DecidableEq, Repr

def atreolinkSlug : String := "atreolink"

def reservedSlugPrefix : String := "atreo-"

def isReservedSlug (slug : String) : Bool :=
  slug = atreolinkSlug || (chars reservedSlugPrefix).isPrefixOf (chars slug)

structure Server where
  registry : Option Certs.Registry
  trustedNetworks : List IPNet
  overlayNets : List IPNet
  overlayGatewayV4 : String
  overlayGatewayV6 : String
  webOrigin : String

/-- An app to which a browser can be sent. -/
def isWebPort (app : App) : Bool :=
  app.isPort && (app.protocol = "http" || app.protocol = "https") && (1 ≤ app.port && app.port ≤ 65535)

/-- The address that the client has dialled, if it is one. -/
def WebRequest.localIP (r : WebRequest) : String :=
  match r.localAddr with
  | none => ""
  | some addr =>
      let host := before '%' (hostPart addr)
      if (parseIP host).isNone then "" else host

namespace Server

def suffixes (srv : Server) : List String := srv.registry.elim [] (·.suffixes)

def slug (srv : Server) (r : WebRequest) : String := extractSlug r.host srv.suffixes

def allowOrigin (srv : Server) : Option String := if srv.webOrigin = "" then none else some srv.webOrigin

/-- How a source has reached the proxy. -/
def via (srv : Server) (sourceIP : String) : String :=
  if isTrusted sourceIP srv.overlayNets then "tunnel"
  else if isTrusted sourceIP srv.trustedNetworks then "lan" else ""

def serveReserved (srv : Server) (r : WebRequest) (sourceIP : String) : Answer :=
  if r.method = "GET" ∧ r.path = "/net" ∧ srv.via sourceIP ≠ "" ∧ r.localIP ≠ "" then
    .net srv.allowOrigin (srv.via sourceIP) r.localIP
  else .noContent srv.allowOrigin

def redirectPortApp (srv : Server) (r : WebRequest) (app : App) (sourceIP : String) : Answer :=
  let host :=
    if r.localIP ≠ "" then r.localIP
    else if (parseIP sourceIP).any fun ip => (to4 ip).isNone then srv.overlayGatewayV6
    else srv.overlayGatewayV4
  .redirect
    { scheme := app.protocol
      host := joinHostPort host (toString app.port)
      path := r.path
      rawQuery := r.rawQuery }

end Server

section

variable (lower : Char → Char) (parses : String → Bool)

/-- `parses` tells for which texts `url.Parse` succeeds. -/
def proxyTo (app : App) : Answer := if parses app.internalUrl then .forward app else .page .badGateway

/-- For a source in a trusted network. The two stores are what the two questions find. -/
def Server.serveTrusted (srv : Server) (first second : Store) (r : WebRequest)
    (sourceIP slug : String) : Answer :=
  match first.findAppBySlug lower slug with
  | some app => proxyTo parses app
  | none =>
      match second.findPortAppBySlug lower slug with
      | some pa => if isWebPort pa then srv.redirectPortApp r pa sourceIP else .page .notFound
      | none => .page .notFound

/-- For any other source. -/
def Server.serveMember (srv : Server) (first second : Store) (r : WebRequest)
    (sourceIP slug : String) : Answer :=
  match first.isAppAllowed lower sourceIP slug with
  | some app => proxyTo parses app
  | none =>
      match second.isPortAppAllowed lower sourceIP slug with
      | some pa => if isWebPort pa then srv.redirectPortApp r pa sourceIP else .page .forbidden
      | none => .page .forbidden

def Server.serveHTTP (srv : Server) (first second : Store) (r : WebRequest) : Answer :=
  match splitHostPort r.remoteAddr with
  | none => .page .badRequest
  | some (sourceIP, _) =>
      let slug := srv.slug r
      if isReservedSlug slug then srv.serveReserved r sourceIP
      else if slug = "" then .page .notFound
      else if isTrusted sourceIP srv.trustedNetworks then
        srv.serveTrusted lower parses first second r sourceIP slug
      else srv.serveMember lower parses first second r sourceIP slug

end

section

variable {lower : Char → Char} {parses : String → Bool} {srv : Server} {first second : Store}
  {r : WebRequest}

theorem serveReserved_cases (srv : Server) (r : WebRequest) (ip : String) :
    srv.serveReserved r ip = .noContent srv.allowOrigin ∨
      srv.serveReserved r ip = .net srv.allowOrigin (srv.via ip) r.localIP := by
  unfold Server.serveReserved
  split
  · exact .inr rfl
  · exact .inl rfl

theorem proxyTo_cases (parses : String → Bool) (app : App) :
    proxyTo parses app = .forward app ∨ proxyTo parses app = .page .badGateway := by
  unfold proxyTo
  split
  · exact .inl rfl
  · exact .inr rfl

/-- Everything that a source outside the trusted networks may get. -/
inductive Given (lower : Char → Char) (parses : String → Bool) (srv : Server) (first second : Store)
    (r : WebRequest) : Answer → Prop where
  | unreadable (none_ : r.remoteIP = "") : Given lower parses srv first second r (.page .badRequest)
  | reserved (host : isReservedSlug (srv.slug r) = true) :
      Given lower parses srv first second r (srv.serveReserved r r.remoteIP)
  | nameless (host : srv.slug r = "") : Given lower parses srv first second r (.page .notFound)
  | app (a : App) (host : srv.slug r ≠ "")
      (allowed : first.isAppAllowed lower r.remoteIP (srv.slug r) = some a) :
      Given lower parses srv first second r (proxyTo parses a)
  | port (a : App) (refused : first.isAppAllowed lower r.remoteIP (srv.slug r) = none)
      (allowed : second.isPortAppAllowed lower r.remoteIP (srv.slug r) = some a)
      (web : isWebPort a = true) :
      Given lower parses srv first second r (srv.redirectPortApp r a r.remoteIP)
  | refused (refused : first.isAppAllowed lower r.remoteIP (srv.slug r) = none) :
      Given lower parses srv first second r (.page .forbidden)

theorem given_serveHTTP (hUntrusted : isTrusted r.remoteIP srv.trustedNetworks = false) :
    Given lower parses srv first second r (srv.serveHTTP lower parses first second r) := by
  unfold Server.serveHTTP
  cases hSplit : splitHostPort r.remoteAddr with
  | none => exact .unreadable (by rw [Request.remoteIP, hSplit]; rfl)
  | some parts =>
      obtain ⟨ip, port⟩ := parts
      obtain rfl : r.remoteIP = ip := by rw [Request.remoteIP, hSplit]; rfl
      dsimp only
      rw [hUntrusted, if_neg Bool.false_ne_true]
      split
      next hReserved => exact .reserved hReserved
      split
      next hSlug => exact .nameless hSlug
      next hSlug =>
        unfold Server.serveMember
        split
        next app hAllowed => exact .app app hSlug hAllowed
        next hRefused =>
          split
          next app hAllowed =>
            split
            next hWeb => exact .port app hRefused hAllowed hWeb
            · exact .refused hRefused
          · exact .refused hRefused

/-- The app comes from the row of the address or, for an admin, from the catalogue or any row. -/
theorem isAppAllowed_eq_some {s : Store} {ip slug : String} {app : App}
    (h : s.isAppAllowed lower ip slug = some app) :
    ∃ m, s.lookupByTunnelIP ip = some m ∧ active m = true ∧ app.isPort = false ∧
      (app ∈ m.allowedApps ∨ m.isAdmin = true ∧
        (app ∈ s.apps ∨ ∃ n ∈ s.members, app ∈ n.allowedApps)) := by
  obtain ⟨m, hm, h⟩ := Option.bind_eq_some_iff.mp h
  split at h
  · cases h
  next hActive =>
    have hYes : active m = true := by simpa using hActive
    split at h
    next hAdmin =>
      have hMeets := List.find?_some h
      have hMem := List.mem_of_find?_eq_some h
      rw [List.mem_append, List.mem_flatMap] at hMem
      simp only [Bool.and_eq_true, Bool.not_eq_true'] at hMeets
      exact ⟨m, hm, hYes, hMeets.1, .inr ⟨hAdmin, hMem⟩⟩
    · have hMeets := List.find?_some h
      simp only [Bool.and_eq_true, Bool.not_eq_true'] at hMeets
      exact ⟨m, hm, hYes, hMeets.1, .inl (List.mem_of_find?_eq_some h)⟩

variable {answer : Answer}

theorem Given.of_forward (h : Given lower parses srv first second r answer) {app : App}
    (hAnswer : answer = .forward app) :
    first.isAppAllowed lower r.remoteIP (srv.slug r) = some app := by
  cases h with
  | reserved => rcases serveReserved_cases srv r r.remoteIP with hCase | hCase <;>
      rw [hCase] at hAnswer <;> cases hAnswer
  | app a host allowed =>
      rcases proxyTo_cases parses a with hCase | hCase <;> rw [hCase] at hAnswer <;> cases hAnswer
      exact allowed
  | unreadable | nameless | port | refused => cases hAnswer

theorem Given.of_redirect (h : Given lower parses srv first second r answer) {l : Location}
    (hAnswer : answer = .redirect l) :
    ∃ app host, second.isPortAppAllowed lower r.remoteIP (srv.slug r) = some app ∧
      isWebPort app = true ∧ l.host = joinHostPort host (toString app.port) := by
  cases h with
  | reserved => rcases serveReserved_cases srv r r.remoteIP with hCase | hCase <;>
      rw [hCase] at hAnswer <;> cases hAnswer
  | app a host allowed =>
      rcases proxyTo_cases parses a with hCase | hCase <;> rw [hCase] at hAnswer <;> cases hAnswer
  | port a refused allowed web =>
      cases hAnswer
      exact ⟨a, _, allowed, web, rfl⟩
  | unreadable | nameless | refused => cases hAnswer

/-- Apart from the reserved hosts, an app is looked for just if the access list allows it. -/
theorem Given.proxied_iff (h : Given lower parses srv first second r answer)
    (hCoherent : first.Coherent) (hReserved : isReservedSlug (srv.slug r) = false) :
    (answer = .page .badGateway ∨ ∃ app, answer = .forward app) ↔
      r.remoteIP ≠ "" ∧ srv.slug r ≠ "" ∧
        (first.isAppAllowed lower r.remoteIP (srv.slug r)).isSome = true := by
  cases h with
  | unreadable none_ => simp [none_]
  | reserved host =>
      rw [hReserved] at host
      cases host
  | nameless host => simp [host]
  | app a host allowed =>
      obtain ⟨m, hLookup, _⟩ := isAppAllowed_eq_some allowed
      have hIP := (hCoherent.exists_address hLookup).2.1
      rcases proxyTo_cases parses a with hCase | hCase <;> simp [hCase, hIP, host, allowed]
  | port a refused allowed web => simp [Server.redirectPortApp, refused]
  | refused refused => simp [refused]

end

/-- The proxy, for a source outside the trusted networks. -/
structure Guarded (lower : Char → Char) (parses : String → Bool) (srv : Server) (first second : Store)
    (r : WebRequest) : Prop where
  /-- An app is served to a client of an active member who may use it. -/
  forward : ∀ app, srv.serveHTTP lower parses first second r = .forward app → app.isPort = false ∧
    ∃ m ∈ first.members, active m = true ∧ (∃ c ∈ m.clients, HasAddress r.remoteIP c) ∧
      (app ∈ m.allowedApps ∨ m.isAdmin = true ∧
        (app ∈ first.apps ∨ ∃ n ∈ first.members, app ∈ n.allowedApps))
  /-- A client is sent only to a port that the firewall opens to its address. -/
  redirect : ∀ l, srv.serveHTTP lower parses first second r = .redirect l →
    ∃ g ∈ second.portGrants, (g.tunnelIP = r.remoteIP ∨ g.tunnelIPv6 = r.remoteIP) ∧
      ∃ port ∈ g.tcp, ∃ host, l.host = joinHostPort host (toString port)
  /-- The forward-auth endpoint lets the same requests pass. -/
  auth : ∀ a : AuthServer, a.aclStore = first → a.registry = srv.registry →
    a.trustedNetworks = srv.trustedNetworks → a.fromProxy r.toRequest = false →
    isReservedSlug (srv.slug r) = false →
    ((a.serveHTTP lower r.toRequest).status = 200 ↔
      srv.serveHTTP lower parses first second r = .page .badGateway ∨
        ∃ app, srv.serveHTTP lower parses first second r = .forward app)
  /-- What a member gets depends on its own row alone, so that an app it may not use cannot be told
  from one that does not exist. -/
  alike : ∀ first' second' : Store,
    first'.lookupByTunnelIP r.remoteIP = first.lookupByTunnelIP r.remoteIP →
    second'.lookupByTunnelIP r.remoteIP = second.lookupByTunnelIP r.remoteIP →
    (∀ m, first.lookupByTunnelIP r.remoteIP = some m → m.isAdmin = false) →
    srv.serveHTTP lower parses first' second' r = srv.serveHTTP lower parses first second r

theorem isAppAllowed_congr (lower : Char → Char) {s t : Store} {ip : String}
    (hSame : t.lookupByTunnelIP ip = s.lookupByTunnelIP ip)
    (hMember : ∀ m, s.lookupByTunnelIP ip = some m → m.isAdmin = false) (slug : String) :
    t.isAppAllowed lower ip slug = s.isAppAllowed lower ip slug := by
  rw [Store.isAppAllowed, Store.isAppAllowed, hSame]
  cases hLookup : s.lookupByTunnelIP ip with
  | none => rfl
  | some m => simp [hMember m hLookup]

theorem serveHTTP_congr {lower : Char → Char} {parses : String → Bool} {srv : Server}
    {first second first' second' : Store} {r : WebRequest}
    (hUntrusted : isTrusted r.remoteIP srv.trustedNetworks = false)
    (hApp : ∀ slug, first'.isAppAllowed lower r.remoteIP slug =
      first.isAppAllowed lower r.remoteIP slug)
    (hPort : ∀ slug, second'.isPortAppAllowed lower r.remoteIP slug =
      second.isPortAppAllowed lower r.remoteIP slug) :
    srv.serveHTTP lower parses first' second' r = srv.serveHTTP lower parses first second r := by
  unfold Server.serveHTTP
  cases hSplit : splitHostPort r.remoteAddr with
  | none => rfl
  | some parts =>
      obtain ⟨ip, port⟩ := parts
      have hIP : r.remoteIP = ip := by rw [Request.remoteIP, hSplit]; rfl
      rw [hIP] at hUntrusted hApp hPort
      simp only [hUntrusted, Bool.false_eq_true, if_false, Server.serveMember, hApp, hPort]

/-- The answer of the forward-auth endpoint to a request that comes straight from the client. -/
theorem auth_status {lower : Char → Char} {a : AuthServer} {r : Request}
    (hDirect : a.fromProxy r = false) (hUntrusted : isTrusted r.remoteIP a.trustedNetworks = false) :
    (a.serveHTTP lower r).status = 200 ↔ r.remoteIP ≠ "" ∧ extractSlug r.host a.suffixes ≠ "" ∧
      (a.aclStore.isAppAllowed lower r.remoteIP (extractSlug r.host a.suffixes)).isSome = true := by
  have hSource : a.sourceIP r = r.remoteIP := by simp [AuthServer.sourceIP, hDirect]
  have hHost : a.requestHost r = r.host := by simp [AuthServer.requestHost, hDirect]
  unfold AuthServer.serveHTTP
  simp only [hSource, hHost, hUntrusted, Bool.false_eq_true, if_false]
  by_cases hIP : r.remoteIP = ""
  · simp [hIP]
  · by_cases hSlug : extractSlug r.host a.suffixes = ""
    · simp [hIP, hSlug]
    · rw [if_neg hIP, if_neg hSlug]
      cases hAllowed : a.aclStore.isAppAllowed lower r.remoteIP (extractSlug r.host a.suffixes) with
      | none => simp
      | some app =>
          simp only [Option.isSome_some, ne_eq, hIP, hSlug, not_false_eq_true, and_self, iff_true]
          split <;> rfl

theorem guarded {lower : Char → Char} {srv : Server} {first second : Store} {r : WebRequest}
    (parses : String → Bool) (hFirst : first.Coherent) (hSecond : second.Publishable)
    (hUntrusted : isTrusted r.remoteIP srv.trustedNetworks = false) :
    Guarded lower parses srv first second r := by
  have hGiven : Given lower parses srv first second r _ := given_serveHTTP hUntrusted
  refine ⟨fun app h => ?_, fun l h => ?_, fun a hStore hRegistry hNetworks hDirect hReserved => ?_,
    fun first' second' hSame hSame' hMember => ?_⟩
  · obtain ⟨m, hLookup, hActive, hKind, hApp⟩ := isAppAllowed_eq_some (hGiven.of_forward h)
    obtain ⟨hm, _, hHas⟩ := hFirst.exists_address hLookup
    exact ⟨hKind, m, hm, hActive, hHas, hApp⟩
  · obtain ⟨app, host, hAllowed, hWeb, hHost⟩ := hGiven.of_redirect h
    obtain ⟨g, hg, hIP, hOpens⟩ := hSecond.exists_grant hAllowed
    have hProtocol : app.protocol = "http" ∨ app.protocol = "https" := by
      simp only [isWebPort, Bool.and_eq_true, Bool.or_eq_true, decide_eq_true_eq] at hWeb
      exact hWeb.1.2
    refine ⟨g, hg, hIP, app.port, ?_, host, hHost⟩
    rcases hOpens with ⟨hUDP, _⟩ | ⟨_, hPort⟩
    · rcases hProtocol with hWeb | hWeb <;> exact absurd (hWeb.symm.trans hUDP) (by decide)
    · exact hPort
  · have hSuffixes : a.suffixes = srv.suffixes := by
      rw [AuthServer.suffixes, hRegistry, Server.suffixes]
    rw [auth_status hDirect (hNetworks ▸ hUntrusted), hStore, hSuffixes]
    exact (hGiven.proxied_iff hFirst hReserved).symm
  · refine serveHTTP_congr hUntrusted (isAppAllowed_congr lower hSame hMember) fun slug => ?_
    rw [Store.isPortAppAllowed, Store.isPortAppAllowed, hSame']

/-- Whatever messages the agent has handled by the time a request asks the access list, and by the
time it asks again, the proxy serves a source outside the trusted networks as it should. -/
theorem proxy_guards_members {env : Tunnel.Env} {start : Tunnel.Agent} (hStart : Tunnel.Bare start.store)
    (inputs more : List Tunnel.Input) (lower : Char → Char) (parses : String → Bool) (srv : Server)
    {r : WebRequest} (hUntrusted : isTrusted r.remoteIP srv.trustedNetworks = false) :
    Guarded lower parses srv (run (Tunnel.Agent.step env) start inputs).store
      (run (Tunnel.Agent.step env) start (inputs ++ more)).store r := by
  have hPublishable : ∀ inputs, (run (Tunnel.Agent.step env) start inputs).store.Publishable :=
    fun inputs => invariant_always (fun agent : Tunnel.Agent => agent.store.Publishable)
      (fun _ _ h => Tunnel.publishable_step h) hStart.publishable inputs
  exact guarded parses (hPublishable inputs).coherent (hPublishable _) hUntrusted

def sampleServer : Server where
  registry := some ⟨(∅ : AList fun _ : String => Certs.Entry).insert "home.example" {}⟩
  trustedNetworks := parseTrustedNetworks ["192.168.0.0/16"]
  overlayNets := parseTrustedNetworks ["100.64.0.0/24"]
  overlayGatewayV4 := "100.64.0.1"
  overlayGatewayV6 := ""
  webOrigin := ""

/-- A member asks for a port app by its name. -/
def sampleWebRequest : WebRequest where
  remoteAddr := "100.64.0.2:40000"
  host := "web.home.example"
  method := "GET"
  path := "/"
  rawQuery := ""
  localAddr := some "100.64.0.1:443"

/-- The access list of a member with a port app, after some more messages. -/
def porterStore (more : List Tunnel.Input) : Store :=
  (run (Tunnel.Agent.step Tunnel.porterEnv) Tunnel.porterAgent
    (Tunnel.porterInputs ++ more)).store

/-- Between the two questions the member provisions a further client. -/
def furtherClient : List Tunnel.Input :=
  Tunnel.sampleProvisioning (Tunnel.sampleKey 2) "b" (Tunnel.sampleWGKey 4) 0

/-- The member is sent to the port, which the firewall opens to it. -/
theorem proxy_guards_porter :
    (porterStore furtherClient).members ≠ (porterStore []).members ∧
      sampleServer.serveHTTP Char.toLower (fun _ => true) (porterStore [])
        (porterStore furtherClient) sampleWebRequest =
          .redirect ⟨"http", "100.64.0.1:8080", "/", ""⟩ ∧
      Guarded Char.toLower (fun _ => true) sampleServer (porterStore []) (porterStore furtherClient)
        sampleWebRequest := by
  have hUntrusted : isTrusted sampleWebRequest.remoteIP sampleServer.trustedNetworks = false := by
    decide +kernel
  have hStore (more : List Tunnel.Input) : porterStore more =
      (run (Tunnel.Agent.step Tunnel.porterEnv) Tunnel.porterApplied.1 more).store :=
    congrArg Tunnel.Agent.store (Tunnel.run_porter more)
  refine ⟨?_, ?_, proxy_guards_members (Tunnel.bare_fresh Tunnel.porterEnv _) Tunnel.porterInputs
    furtherClient _ _ _ hUntrusted⟩
  · rw [hStore, hStore, Tunnel.porterApplied, Tunnel.beginState_porter]
    decide +kernel
  · rw [hStore, hStore, Tunnel.porterApplied, Tunnel.beginState_porter]
    decide +kernel

end Proxy
