import AtreoAgent.Overlay.Persisted
import AtreoAgent.WireGuard.Pool

/-! The IPv6 addresses of the clients. They carry the two octets that tell the overlays apart and
the last octet of the IPv4 address, so that over all overlays no two of them are equal. -/
namespace Overlay

open Codec Net WireGuard

/-- The IPv6 address of a host. -/
def hostV6 (b c d : UInt8) : IP := (networkV6 ((b.toNat : Int) - 64) c.toNat).set 15 d

theorem length_hostV6 (b c d : UInt8) : (hostV6 b c d).length = 16 := by
  simp [hostV6, networkV6]

theorem to4_hostV6 (b c d : UInt8) : to4 (hostV6 b c d) = none := by
  simp [to4, hostV6, networkV6, v4Head]

theorem parseIP_hostV6 (b c d : UInt8) : parseIP (ipString (hostV6 b c d)) = some (hostV6 b c d) :=
  parseIP_ipString (length_hostV6 b c d) (to4_hostV6 b c d)

theorem byte_toNat (c : UInt8) : byte c.toNat = c := by
  have hc := c.toNat_lt
  have hMod : ((c.toNat : Int) % 256).toNat = c.toNat := by omega
  rw [byte, hMod, UInt8.ofNat_toNat]

theorem byte_sub_injective {b p : UInt8} (hb : 64 ≤ b.toNat) (hp : 64 ≤ p.toNat)
    (h : byte ((b.toNat : Int) - 64) = byte ((p.toNat : Int) - 64)) : b = p := by
  have hbLt := b.toNat_lt
  have hpLt := p.toNat_lt
  have hMod := congrArg UInt8.toNat h
  simp only [byte, UInt8.toNat_ofNat'] at hMod
  exact UInt8.toNat_inj.mp (by omega)

/-- The text of an IPv6 address determines the overlay and the host. -/
theorem hostV6_injective {b c d p q r : UInt8} (hb : 64 ≤ b.toNat) (hp : 64 ≤ p.toNat)
    (h : ipString (hostV6 b c d) = ipString (hostV6 p q r)) : b = p ∧ c = q ∧ d = r := by
  have hParse := parseIP_hostV6 b c d
  rw [h, parseIP_hostV6] at hParse
  simp only [hostV6, networkV6, List.replicate, List.cons_append, List.nil_append, List.set_cons_succ,
    List.set_cons_zero, Option.some.injEq, List.cons.injEq, byte_toNat] at hParse
  obtain ⟨-, -, -, -, -, hSecond, -, hThird, -, -, -, -, -, -, -, hHost, -⟩ := hParse
  exact ⟨(byte_sub_injective hp hb hSecond).symm, hThird.symm, hHost.symm⟩

/-- The IPv6 network of the overlay holds the address. -/
theorem subnetV6_contains (b c d : UInt8) :
    ∃ n, parseCIDR (v6At ((b.toNat : Int) - 64) c.toNat).1 = some n ∧ n.contains (hostV6 b c d) = true := by
  have hZero : networkV6 ((b.toNat : Int) - 64) c.toNat = hostV6 b c 0 := by
    simp [hostV6, networkV6, List.replicate]
  have hDot : ¬(ipString (hostV6 b c 0)).toList.find? (fun c => c = '.' ∨ c = ':') = some '.' := fun h =>
    notMem_ipString (to4_hostV6 b c 0) (by decide) (by decide) (List.mem_of_find?_eq_some h)
  have hText : (v6At ((b.toNat : Int) - 64) c.toNat).1 = ipString (hostV6 b c 0) ++ "/" ++ "64" := by
    rw [v6At, hZero]
    exact append_slash "/64" "64" rfl
  have hMask : cidrMask 64 16 = List.replicate 8 255 ++ List.replicate 8 0 := by decide
  have hNet : ∀ x : UInt8, maskIP (hostV6 b c x) (cidrMask 64 16) = hostV6 b c 0 := by
    intro x
    rw [hMask]
    simp [maskIP, hostV6, networkV6, List.replicate, and_ones]
  have hRead : parseCIDR (ipString (hostV6 b c 0) ++ "/" ++ "64") =
      some ⟨maskIP (hostV6 b c 0) (cidrMask 64 16), cidrMask 64 16⟩ :=
    parseCIDR_text (notMem_ipString (to4_hostV6 b c 0) (by decide) (by decide)) (parseIP_hostV6 b c 0)
      (if_neg hDot) (by decide) (by decide) rfl (by decide)
  have hLength : (cidrMask 64 16).length = 16 := by decide
  refine ⟨⟨hostV6 b c 0, cidrMask 64 16⟩, by rw [hText, hRead, hNet], ?_⟩
  simp only [IPNet.contains, hNet, to4_hostV6, Option.getD_none, length_hostV6, hLength, if_true,
    decide_true, Bool.and_self]

theorem subnetPrefix_subnetText (b c : UInt8) :
    WireGuard.subnetPrefix (subnetText b c) = .ok (String.ofList (formatIPv4 [100, b, c])) := by
  have hSlash : (subnetText b c).toList.splitOn '/' = [formatIPv4 [100, b, c, 0], "24".toList] := by
    have hJoin : (subnetText b c).toList = ['/'].intercalate [formatIPv4 [100, b, c, 0], "24".toList] := by
      simp [subnetText]
    rw [hJoin]
    apply List.splitOn_intercalate
    · intro part hPart
      rcases List.mem_pair.mp hPart with rfl | rfl
      · have hQuad := slash_notMem_quad [100, b, c, 0]
        rwa [String.toList_ofList] at hQuad
      · decide
    · simp
  have hDots : (formatIPv4 [100, b, c, 0]).splitOn '.' =
      [100, b, c, 0].map fun x : UInt8 => (toString x.toNat).toList := by
    apply List.splitOn_intercalate
    · intro part hPart
      obtain ⟨x, -, rfl⟩ := List.mem_map.mp hPart
      exact dot_notMem x
    · simp
  rw [WireGuard.subnetPrefix, hSlash]
  dsimp only
  rw [hDots]
  rfl

/-- An overlay that was accepted, with the allocator and the server that are made for it. -/
structure Installed (o : Overlay) (p : Pool) (srv : Server) : Prop where
  accepted : o.validate = .ok ()
  allocator : ∃ file walk s, Pool.newIPAllocator o.subnetV4 o.gatewayV4 file walk = .ok (p, s)
  gatewayV6 : srv.serverIPv6 = o.gatewayV6

/-- The checked subnet of two octets. -/
def subnetOf (b c : UInt8) : Subnet where
  subnetPrefix := String.ofList (formatIPv4 [100, b, c])
  serverIP := hostText b c 1
  octets := ⟨100, b, c, String.toList_ofList⟩
  gateway := String.toList_inj.mp
    (String.toList_ofList.trans (numbered_toList String.toList_ofList 1).symm)

/-- What was installed belongs to two octets. -/
theorem Installed.exists_octets {o : Overlay} {p : Pool} {srv : Server} (h : Installed o p srv) :
    ∃ b c : UInt8, 64 ≤ b.toNat ∧ o = subnetAt (index b c) ∧ p = (subnetOf b c).toPool := by
  obtain ⟨i, hi, rfl⟩ := (validate_eq_ok_iff o).mp h.accepted
  obtain ⟨b, c, hLow, -, rfl⟩ := exists_index hi
  obtain ⟨file, walk, s, hNew⟩ := h.allocator
  obtain ⟨start, hStart, hPool⟩ := Pool.pool_of_new hNew
  rw [subnetAt_index hLow] at hStart hPool
  rw [subnetPrefix_subnetText] at hStart
  rw [hPool, ← Except.ok.inj hStart]
  exact ⟨b, c, hLow, rfl, rfl⟩

/-- With no state file yet, every accepted overlay is installed. -/
theorem installed_subnetAt {b c : UInt8} (hLow : 64 ≤ b.toNat) (hHigh : b.toNat < 128) {srv : Server}
    (hServer : srv.serverIPv6 = (subnetAt (index b c)).gatewayV6) :
    Installed (subnetAt (index b c)) (subnetOf b c).toPool srv where
  accepted := (validate_eq_ok_iff _).mpr ⟨index b c, index_lt hHigh, rfl⟩
  allocator := by
    rw [subnetAt_index hLow]
    refine ⟨.missing, Pool.Walk.sorted, ⟨(subnetOf b c).toPool.fresh, .missing⟩, ?_⟩
    rw [Pool.newIPAllocator, subnetPrefix_subnetText]
    rfl
  gatewayV6 := hServer

/-- An address of the subnet is a host above the gateway, and its IPv6 address is that of the
same octet. -/
theorem exists_host {b c : UInt8} {srv : Server} {ip : String} (hLow : 64 ≤ b.toNat)
    (hServer : srv.serverIPv6 = (subnetAt (index b c)).gatewayV6)
    (hIP : (subnetOf b c).toPool.inSubnet ip = true) :
    ∃ d : UInt8, d ≠ 1 ∧ ip = (subnetOf b c).host d.toNat ∧ srv.tunnelIPv6 ip = ipString (hostV6 b c d) := by
  have hHost := (subnetOf b c).mem_hosts_of_inSubnet hIP
  have hBase : parseIP srv.serverIPv6 = some (hostV6 b c 1) := by
    rw [hServer, subnetAt_index hLow]
    exact parseIP_hostV6 b c 1
  have hSome := Server.tunnelIPv6_ne_empty hBase (to4_hostV6 b c 1) hHost
  obtain ⟨_, _, _, d, hParse, -, rfl⟩ := (subnetOf b c).exists_octet hHost
  obtain ⟨base, hBase', hText⟩ := Server.tunnelIPv6_eq hParse hSome
  cases hBase.symm.trans hBase'
  have hSet : (hostV6 b c 1).set 15 d = hostV6 b c d := by
    rw [hostV6, List.set_set, hostV6]
  refine ⟨d, ?_, rfl, ?_⟩
  · rintro rfl
    -- the gateway is reserved
    refine (subnetOf b c).notMem_reserved hHost (Finset.mem_insert.mpr (.inl ?_))
    exact (subnetOf b c).gateway.symm
  · rw [ipString, to4_hostV6]
    exact String.toList_inj.mp (by rw [hText, hSet, String.toList_ofList])

/-- The IPv6 addresses of two overlays, or of one, do not collide. -/
theorem dual_stack_never_collides {o o' : Overlay} {p p' : Pool} {srv srv' : Server}
    (h : Installed o p srv) (h' : Installed o' p' srv') :
    (∀ ip, p.inSubnet ip = true →
      (∃ addr n, srv.tunnelIPv6 ip ≠ "" ∧ parseIP (srv.tunnelIPv6 ip) = some addr ∧
        ipString addr = srv.tunnelIPv6 ip ∧ parseCIDR o.subnetV6 = some n ∧
        n.contains addr = true) ∧
      srv.tunnelIPv6 ip ≠ o.gatewayV6 ∧
      ∀ other, p.inSubnet other = true → srv.tunnelIPv6 ip = srv.tunnelIPv6 other → ip = other) ∧
    (o.subnetV4 ≠ o'.subnetV4 → o.gatewayV6 ≠ o'.gatewayV6 ∧
      ∀ ip, p.inSubnet ip = true → srv.tunnelIPv6 ip ≠ o'.gatewayV6 ∧
        ∀ other, p'.inSubnet other = true → srv.tunnelIPv6 ip ≠ srv'.tunnelIPv6 other) := by
  obtain ⟨b, c, hb, rfl, rfl⟩ := h.exists_octets
  obtain ⟨b', c', hb', rfl, rfl⟩ := h'.exists_octets
  have hGateway : (subnetAt (index b c)).gatewayV6 = ipString (hostV6 b c 1) := by
    rw [subnetAt_index hb]
    rfl
  have hGateway' : (subnetAt (index b' c')).gatewayV6 = ipString (hostV6 b' c' 1) := by
    rw [subnetAt_index hb']
    rfl
  constructor
  · intro ip hIP
    obtain ⟨d, hd, hHost, hText⟩ := exists_host hb h.gatewayV6 hIP
    obtain ⟨n, hNet, hIn⟩ := subnetV6_contains b c d
    refine ⟨⟨hostV6 b c d, n, ?_, ?_, hText.symm, ?_, hIn⟩, ?_, ?_⟩
    · intro hEmpty
      have hParse := parseIP_hostV6 b c d
      rw [← hText, hEmpty] at hParse
      cases hParse
    · rw [hText, parseIP_hostV6]
    · rw [subnetAt_index hb]
      exact hNet
    · rw [hText, hGateway]
      exact fun hSame => hd (hostV6_injective hb hb hSame).2.2
    · intro other hOther hSame
      obtain ⟨e, -, hHost', hText'⟩ := exists_host hb h.gatewayV6 hOther
      rw [hText, hText'] at hSame
      rw [hHost, hHost', (hostV6_injective hb hb hSame).2.2]
  · intro hSubnets
    have hApart : ∀ d e, ipString (hostV6 b c d) ≠ ipString (hostV6 b' c' e) := by
      intro d e hSame
      obtain ⟨rfl, rfl, -⟩ := hostV6_injective hb hb' hSame
      exact hSubnets rfl
    refine ⟨?_, ?_⟩
    · rw [hGateway, hGateway']
      exact hApart 1 1
    · intro ip hIP
      obtain ⟨d, -, -, hText⟩ := exists_host hb h.gatewayV6 hIP
      refine ⟨?_, ?_⟩
      · rw [hText, hGateway']
        exact hApart d 1
      · intro other hOther
        obtain ⟨e, -, -, hText'⟩ := exists_host hb' h'.gatewayV6 hOther
        rw [hText, hText']
        exact hApart d e

def serverAt (b c : UInt8) : Server where
  subnet := (subnetAt (index b c)).subnetV4
  serverIPv6 := (subnetAt (index b c)).gatewayV6
  subnetV6 := (subnetAt (index b c)).subnetV6
  iface := "wg0"
  publicKey := ""
  listenPort := 51820

theorem two_installs_apart :
    (serverAt 64 1).tunnelIPv6 "100.64.1.7" ≠ (serverAt 127 1).tunnelIPv6 "100.127.1.7" :=
  (((dual_stack_never_collides (installed_subnetAt (b := 64) (c := 1) (by decide) (by decide) rfl)
    (installed_subnetAt (b := 127) (c := 1) (by decide) (by decide) rfl)).2 (by decide +kernel)).2
      "100.64.1.7" (by decide +kernel)).2 "100.127.1.7" (by decide +kernel)

end Overlay
