import AtreoAgent.Acl.Store
import AtreoAgent.Acl.TunnelIndex

/-! The decisions of the access list: which app a tunnel address may reach through the
proxy, and which raw port. The portal page asks for the ports of one address and one app,
the firewall lists the ports of all addresses, and both give the same answer when no
address belongs to two clients. -/
namespace Atreolink

open Codec

/-- One character of a slug: letters and digits stay, a run of anything else becomes one
hyphen, though not at the start. -/
def slugStep (state : List Char × Bool) (c : Char) : List Char × Bool :=
  let (result, lastHyphen) := state
  if ('a' ≤ c ∧ c ≤ 'z') ∨ ('0' ≤ c ∧ c ≤ '9') then (result ++ [c], false)
  else if !lastHyphen && result ≠ [] then (result ++ ['-'], true)
  else state

def slugify (lower : Char → Char) (name : String) : String :=
  let result := ((chars (toLower lower (trimSpace name))).foldl slugStep ([], false)).1
  String.ofList (if result.getLast? = some '-' then result.dropLast else result)

/-- The slug, taken from the name if it is empty. -/
def App.effectiveSlug (lower : Char → Char) (a : App) : String :=
  if a.slug ≠ "" then a.slug else slugify lower a.name

end Atreolink

namespace Acl

open Codec Atreolink

/-- Neither suspended nor in any other state. -/
def active (m : MemberACLEntry) : Bool := m.status = "" ∨ m.status = "active"

variable {ip : String} {a : App}

namespace Store

variable (lower : Char → Char)

/-- The app with the slug that the proxy serves: from the catalogue, or else from the apps
of a member. -/
def findAppBySlug (s : Store) (slug : String) : Option App :=
  (s.apps ++ s.members.flatMap (·.allowedApps)).find? fun a =>
    !a.isPort && a.effectiveSlug lower = slug

/-- The port app with the slug, found in the same way. -/
def findPortAppBySlug (s : Store) (slug : String) : Option App :=
  (s.apps ++ s.members.flatMap (·.allowedApps)).find? fun a =>
    a.isPort && a.effectiveSlug lower = slug

/-- The app that the address may reach through the proxy, if there is one. Admins are not
bound to the apps of their row. -/
def isAppAllowed (s : Store) (sourceIP appSlug : String) : Option App := do
  let member ← s.lookupByTunnelIP sourceIP
  if !active member then none
  else if member.isAdmin then s.findAppBySlug lower appSlug
  else member.allowedApps.find? fun a => !a.isPort && a.effectiveSlug lower = appSlug

/-- The port app that the address may reach, if there is one. -/
def isPortAppAllowed (s : Store) (sourceIP appSlug : String) : Option App := do
  let member ← s.lookupByTunnelIP sourceIP
  if !active member then none
  else member.allowedApps.find? fun a => a.isPort && a.effectiveSlug lower = appSlug

variable {lower} {s : Store}

theorem isPortAppAllowed_eq_some {slug : String} (h : s.isPortAppAllowed lower ip slug = some a) :
    ∃ m, s.lookupByTunnelIP ip = some m ∧ active m = true ∧ a ∈ m.allowedApps ∧ a.isPort = true ∧
      a.effectiveSlug lower = slug := by
  obtain ⟨m, hm, h⟩ := Option.bind_eq_some_iff.mp h
  split at h
  · cases h
  next hActive =>
    have hMeets := List.find?_some h
    simp only [Bool.and_eq_true, decide_eq_true_eq] at hMeets
    exact ⟨m, hm, by simpa using hActive, List.mem_of_find?_eq_some h, hMeets.1, hMeets.2⟩

/-- An address may reach the slug of each port app of its member. -/
theorem isPortAppAllowed_of_app (lower : Char → Char) {m : MemberACLEntry}
    (hm : s.lookupByTunnelIP ip = some m) (hActive : active m = true) (ha : a ∈ m.allowedApps)
    (hPort : a.isPort = true) :
    ∃ b, s.isPortAppAllowed lower ip (a.effectiveSlug lower) = some b := by
  have hFound : (m.allowedApps.find? fun b =>
      b.isPort && b.effectiveSlug lower = a.effectiveSlug lower).isSome = true := by
    rw [List.find?_isSome]
    exact ⟨a, ha, by simp [hPort]⟩
  obtain ⟨b, hb⟩ := Option.isSome_iff_exists.mp hFound
  refine ⟨b, Option.bind_eq_some_iff.mpr ⟨m, hm, ?_⟩⟩
  rw [hActive]
  exact hb

end Store

theorem portOf_eq_some {protocols : List String} {port : Int} :
    portOf protocols a = some port ↔
      (a.isPort = true ∧ 1 ≤ a.port ∧ a.port ≤ 65535 ∧ a.protocol ∈ protocols) ∧ a.port = port := by
  rw [portOf]
  split
  next h => simp [h]
  next h => simp [h]

/-- A grant is for a client with an address of an active member. -/
theorem Store.mem_portGrants {s : Store} {g : PortGrant} :
    g ∈ s.portGrants ↔ ∃ m ∈ s.members, active m = true ∧
      g.tcp = m.allowedApps.filterMap (portOf ["tcp", "http", "https"]) ∧
      g.udp = m.allowedApps.filterMap (portOf ["udp"]) ∧ ¬ (g.tcp = [] ∧ g.udp = []) ∧
      ∃ c ∈ m.clients, c.tunnelIP ≠ "" ∧ g.tunnelIP = c.tunnelIP ∧ g.tunnelIPv6 = c.tunnelIPv6 := by
  obtain ⟨tunnelIP, tunnelIPv6, tcp, udp⟩ := g
  rw [Store.portGrants, List.mem_flatMap]
  constructor
  · rintro ⟨m, hm, hg⟩
    rw [List.mem_filter] at hm
    dsimp only at hg
    split at hg
    · cases hg
    next hSome =>
      obtain ⟨c, hc, hEq⟩ := List.mem_map.mp hg
      cases hEq
      obtain ⟨hMem, hIP⟩ := List.mem_filter.mp hc
      exact ⟨m, hm.1, hm.2, rfl, rfl, hSome, c, hMem, of_decide_eq_true hIP, rfl, rfl⟩
  · rintro ⟨m, hm, hActive, rfl, rfl, hSome, c, hc, hIP, rfl, rfl⟩
    refine ⟨m, List.mem_filter.mpr ⟨hm, hActive⟩, ?_⟩
    dsimp only
    rw [if_neg hSome]
    exact List.mem_map.mpr ⟨c, List.mem_filter.mpr ⟨hc, decide_eq_true hIP⟩, rfl⟩

/-- No address, of either family, belongs to two client records. -/
def AddressOnce (members : List MemberACLEntry) : Prop :=
  (members.flatMap (·.clients)).Pairwise fun c d =>
    ∀ ip, HasAddress ip c → HasAddress ip d → ip = ""

theorem AddressOnce.row_eq {members : List MemberACLEntry} (h : AddressOnce members)
    {m n : MemberACLEntry} (hm : m ∈ members) (hn : n ∈ members) {c d : ClientRecord}
    (hc : c ∈ m.clients) (hd : d ∈ n.clients) (hIP : ip ≠ "") (hHas : HasAddress ip c)
    (hOther : HasAddress ip d) : m = n :=
  row_eq_of_pairwise (fun _ _ h ip hc hd => h ip hd hc) h hm hn hc hd
    fun h => hIP (h ip hHas hOther)

/-- A store whose port apps are well formed and whose clients with an IPv6 address have an
IPv4 one. -/
structure Store.Publishable (s : Store) : Prop where
  coherent : s.Coherent
  ports : ∀ m ∈ s.members, ∀ a ∈ m.allowedApps, a.isPort = true →
    1 ≤ a.port ∧ a.port ≤ 65535 ∧ a.protocol ∈ ["tcp", "udp", "http", "https"]
  addressed : ∀ m ∈ s.members, ∀ c ∈ m.clients, c.tunnelIPv6 ≠ "" → c.tunnelIP ≠ ""

/-- What the portal lists for a grant: the app has the port, and its protocol is one of
the list the port stands in. -/
def Opens (g : PortGrant) (a : App) : Prop :=
  a.protocol = "udp" ∧ a.port ∈ g.udp ∨
    a.protocol ∈ ["tcp", "http", "https"] ∧ a.port ∈ g.tcp

/-- A port app that the portal allows is open. -/
theorem Store.Publishable.exists_grant {s : Store} (h : s.Publishable) {lower : Char → Char}
    {slug : String} (hAllowed : s.isPortAppAllowed lower ip slug = some a) :
    ∃ g ∈ s.portGrants, (g.tunnelIP = ip ∨ g.tunnelIPv6 = ip) ∧ Opens g a := by
  obtain ⟨m, hLookup, hActive, ha, hPort, _⟩ := Store.isPortAppAllowed_eq_some hAllowed
  obtain ⟨hm, hIP, c, hc, hHas⟩ := h.coherent.exists_address hLookup
  obtain ⟨hLow, hHigh, hProtocol⟩ := h.ports m hm a ha hPort
  have hOpens : Opens
      { tunnelIP := c.tunnelIP
        tunnelIPv6 := c.tunnelIPv6
        tcp := m.allowedApps.filterMap (portOf ["tcp", "http", "https"])
        udp := m.allowedApps.filterMap (portOf ["udp"]) } a := by
    by_cases hUDP : a.protocol = "udp"
    · refine .inl ⟨hUDP, List.mem_filterMap.mpr ⟨a, ha, portOf_eq_some.mpr ⟨?_, rfl⟩⟩⟩
      exact ⟨hPort, hLow, hHigh, by simp [hUDP]⟩
    · have hTCP : a.protocol ∈ ["tcp", "http", "https"] := by
        simpa [hUDP] using hProtocol
      refine .inr ⟨hTCP, List.mem_filterMap.mpr ⟨a, ha, portOf_eq_some.mpr ⟨?_, rfl⟩⟩⟩
      exact ⟨hPort, hLow, hHigh, hTCP⟩
  have hAddress : c.tunnelIP ≠ "" := by
    rcases hHas with rfl | rfl
    · exact hIP
    · exact h.addressed m hm c hc hIP
  refine ⟨⟨c.tunnelIP, c.tunnelIPv6, _, _⟩,
    Store.mem_portGrants.mpr ⟨m, hm, hActive, rfl, rfl, ?_, c, hc, hAddress, rfl, rfl⟩, hHas, hOpens⟩
  rintro ⟨hTCP, hUDP⟩
  rcases hOpens with ⟨_, hMem⟩ | ⟨_, hMem⟩
  · rw [hUDP] at hMem
    cases hMem
  · rw [hTCP] at hMem
    cases hMem

/-- The portal offers the port to the address: the row of the address has a port app with the port
and one of the protocols, and the address is allowed its slug. The app that comes back for the slug
is a port app of the same row; it is another one if two of them share the slug. -/
def Store.Offers (s : Store) (lower : Char → Char) (ip : String) (protocols : List String)
    (port : Int) : Prop :=
  ∃ m a b, s.lookupByTunnelIP ip = some m ∧ active m = true ∧
    (a ∈ m.allowedApps ∧ a.isPort = true ∧ a.port = port ∧ a.protocol ∈ protocols) ∧
    s.isPortAppAllowed lower ip (a.effectiveSlug lower) = some b ∧
    b ∈ m.allowedApps ∧ b.isPort = true ∧ b.effectiveSlug lower = a.effectiveSlug lower

/-- The portal offers an open port to the addresses that it is open to. -/
theorem Store.Publishable.offers {s : Store} (h : s.Publishable) (hOnce : AddressOnce s.members)
    (lower : Char → Char) {g : PortGrant} (hg : g ∈ s.portGrants) (hIP : ip ≠ "")
    (hHas : g.tunnelIP = ip ∨ g.tunnelIPv6 = ip) {protocols : List String} {port : Int}
    (hPort : (protocols = ["tcp", "http", "https"] ∧ port ∈ g.tcp) ∨
      (protocols = ["udp"] ∧ port ∈ g.udp)) : s.Offers lower ip protocols port := by
  obtain ⟨m, hm, hActive, hTCP, hUDP, _, c, hc, _, hIPv4, hIPv6⟩ := Store.mem_portGrants.mp hg
  rw [hIPv4, hIPv6] at hHas
  have hLookup : s.lookupByTunnelIP ip = some m := by
    refine h.coherent.lookup_owner hIP hm ⟨c, hc, hHas⟩ ?_
    rintro n hn ⟨d, hd, hOther⟩
    exact (hOnce.row_eq hm hn hc hd hIP hHas hOther).symm
  have hListed : port ∈ m.allowedApps.filterMap (portOf protocols) := by
    rcases hPort with ⟨rfl, hMem⟩ | ⟨rfl, hMem⟩
    · rwa [hTCP] at hMem
    · rwa [hUDP] at hMem
  obtain ⟨a, ha, hPortOf⟩ := List.mem_filterMap.mp hListed
  obtain ⟨⟨hIsPort, _, _, hProtocol⟩, hEq⟩ := portOf_eq_some.mp hPortOf
  obtain ⟨b, hAllowed⟩ := Store.isPortAppAllowed_of_app lower hLookup hActive ha hIsPort
  obtain ⟨n, hFound, _, hb, hbPort, hSlug⟩ := Store.isPortAppAllowed_eq_some hAllowed
  obtain rfl : m = n := Option.some.inj (hLookup.symm.trans hFound)
  exact ⟨m, a, b, hLookup, hActive, ⟨ha, hIsPort, hEq, hProtocol⟩, hAllowed, hb, hbPort, hSlug⟩

end Acl
