import AtreoAgent.Codec.Decimal
import AtreoAgent.Net.IPv6
import AtreoAgent.WireGuard.Server

/-! The addresses an overlay hands out. The hosts of a subnet are distinct dotted quads;
an address that passes the subnet check is one of them; and `AddPeer` accepts each. -/
namespace WireGuard

open Codec Atreolink Net

variable {a b c : UInt8} {ip : String} {srv : Server}

theorem octet_injective (h : (toString a.toNat).toList = (toString b.toNat).toList) : a = b := by
  have hOctets := octet_decimal a
  rw [h, octet_decimal] at hOctets
  exact (Option.some.inj hOctets).symm

theorem dot_notMem (a : UInt8) : '.' ∉ (toString a.toNat).toList := fun hDot =>
  absurd (decimal_digits a '.' hDot) (by decide)

/-- Two texts split alike at their first dot. -/
theorem split_at_dot {xs ys us vs : List Char} (hx : '.' ∉ xs) (hy : '.' ∉ ys)
    (h : xs ++ '.' :: us = ys ++ '.' :: vs) : xs = ys ∧ us = vs := by
  induction xs generalizing ys with
  | nil =>
      cases ys with
      | nil => exact ⟨rfl, (List.cons.inj h).2⟩
      | cons y ys => exact absurd (by rw [(List.cons.inj h).1]; exact List.mem_cons_self) hy
  | cons x xs ih =>
      cases ys with
      | nil => exact absurd (by rw [← (List.cons.inj h).1]; exact List.mem_cons_self) hx
      | cons y ys =>
          obtain ⟨rfl, hRest⟩ := List.cons.inj h
          obtain ⟨rfl, rfl⟩ := ih (fun hm => hx (List.mem_cons_of_mem _ hm))
            (fun hm => hy (List.mem_cons_of_mem _ hm)) hRest
          exact ⟨rfl, rfl⟩

/-- The first octet of a dotted text. -/
theorem formatIPv4_cons_inj {p q : UInt8} {quad rest : List UInt8} {tail : List Char}
    (h : formatIPv4 (a :: b :: quad) ++ tail = formatIPv4 (p :: q :: rest)) :
    a = p ∧ formatIPv4 (b :: quad) ++ tail = formatIPv4 (q :: rest) := by
  rw [formatIPv4_cons, formatIPv4_cons, List.append_assoc, List.cons_append] at h
  obtain ⟨hFirst, hRest⟩ := split_at_dot (dot_notMem a) (dot_notMem p) h
  exact ⟨octet_injective hFirst, hRest⟩

/-- The number behind a text is determined. -/
theorem numbered_injective {start : String} {i j : Nat}
    (h : start ++ toString i = start ++ toString j) : i = j := by
  have hList := congrArg String.toList h
  simp only [String.toList_append, List.append_cancel_left_eq] at hList
  rw [Nat.toString_eq_repr, Nat.toString_eq_repr, Nat.toList_repr, Nat.toList_repr] at hList
  exact toDigits_injective i j hList

/-- Three octets and a number make a dotted quad. -/
theorem numbered_toList {start : String} (hOctets : start.toList = formatIPv4 [a, b, c])
    (d : UInt8) : (start ++ "." ++ toString d.toNat).toList = formatIPv4 [a, b, c, d] := by
  simp only [String.toList_append, hOctets, formatIPv4_cons, formatIPv4_singleton,
    List.append_assoc, List.cons_append]
  rfl

theorem ipString_quad {d : UInt8} (h : ip.toList = formatIPv4 [a, b, c, d]) :
    ipString (ofV4 [a, b, c, d]) = ip := by
  rw [ipString, to4_ofV4]
  exact String.toList_inj.mp (by rw [String.toList_ofList, h])

/-- The canonical text of an IPv4 address is a dotted quad. -/
theorem quad_of_canonical {parsed : IP} (hParse : parseIP ip = some parsed)
    (hV4 : (to4 parsed).isSome = true) (hText : ipString parsed = ip) :
    ∃ p q r s : UInt8, ip.toList = formatIPv4 [p, q, r, s] := by
  obtain ⟨quad, hQuad⟩ := Option.isSome_iff_exists.mp hV4
  have hFormat : ip.toList = formatIPv4 quad := by
    rw [← hText, ipString, hQuad, String.toList_ofList]
  obtain ⟨p, q, r, s, rfl, -⟩ := exists_quad_of_to4 (length_of_parseIP hParse) hQuad
  exact ⟨p, q, r, s, hFormat⟩

namespace Pool

variable {p : Pool} {ip : String}

theorem host_injective (p : Pool) {i j : Nat} (h : p.host i = p.host j) : i = j := numbered_injective h

theorem nodup_hosts (p : Pool) : p.hosts.Nodup :=
  List.Nodup.map (fun _ _ h => p.host_injective h) List.nodup_range'

theorem card_hosts (p : Pool) : p.hosts.toFinset.card = 253 := by
  rw [List.toFinset_card_of_nodup p.nodup_hosts, hosts, List.length_map, List.length_range']

/-- With the server at 1 the hosts that are handed out are not reserved. -/
theorem notMem_reserved (p : Pool) (hServer : p.serverIP = p.host 1) (h : ip ∈ p.hosts) :
    ip ∉ p.reserved := by
  obtain ⟨i, hRange, rfl⟩ := List.mem_map.mp h
  obtain ⟨hLow, hHigh⟩ := List.mem_range'_1.mp hRange
  simp only [reserved, hServer, Finset.mem_insert, Finset.mem_singleton, not_or]
  refine ⟨fun hSame => ?_, fun hSame => ?_, fun hSame => ?_⟩
  · have := p.host_injective hSame
    omega
  · have := p.host_injective hSame
    omega
  · have := p.host_injective hSame
    omega

theorem covers_of_mem_hosts (h : ip ∈ p.hosts) : p.covers ip = true := by
  obtain ⟨i, _, rfl⟩ := List.mem_map.mp h
  have hText : (p.host i).toList = (p.subnetPrefix ++ ".").toList ++ (toString i).toList :=
    String.toList_append
  rw [covers, List.isPrefixOf_iff_prefix, hText]
  exact List.prefix_append _ _

/-- What passes the subnet check. -/
theorem inSubnet_cases (h : p.inSubnet ip = true) :
    ∃ parsed, parseIP ip = some parsed ∧ (to4 parsed).isSome = true ∧ ipString parsed = ip ∧
      p.covers ip = true ∧ ip ∉ p.reserved := by
  rw [inSubnet] at h
  split at h
  · cases h
  next parsed hParse =>
    simp only [Bool.and_eq_true, decide_eq_true_eq, Bool.not_eq_true', Bool.or_eq_false_iff,
      decide_eq_false_iff_not] at h
    obtain ⟨⟨⟨hV4, hText⟩, hCovers⟩, hReserved⟩ := h
    exact ⟨parsed, hParse, hV4, hText, hCovers, by simp [reserved, hReserved]⟩

theorem notMem_reserved_of_inSubnet (h : p.inSubnet ip = true) : ip ∉ p.reserved := by
  obtain ⟨_, _, _, _, _, hReserved⟩ := inSubnet_cases h
  exact hReserved

end Pool

namespace Subnet

variable (net : Subnet)

theorem host_ne_empty (i : Nat) : net.host i ≠ "" := by
  intro h
  have hList := congrArg String.toList h
  simp [Pool.host] at hList

theorem host_toList {a b c : UInt8} (hOctets : net.subnetPrefix.toList = formatIPv4 [a, b, c])
    (d : UInt8) : (net.host d.toNat).toList = formatIPv4 [a, b, c, d] := numbered_toList hOctets d

variable {ip : String}

theorem mem_hosts : ip ∈ net.hosts ↔ ∃ i, 2 ≤ i ∧ i ≤ 254 ∧ net.host i = ip := by
  simp only [Pool.hosts, List.mem_map, List.mem_range'_1]
  constructor
  · rintro ⟨i, hi, rfl⟩
    exact ⟨i, hi.1, by omega, rfl⟩
  · rintro ⟨i, hLow, hHigh, rfl⟩
    exact ⟨i, ⟨hLow, by omega⟩, rfl⟩

theorem ne_empty_of_mem_hosts (h : ip ∈ net.hosts) : ip ≠ "" := by
  obtain ⟨i, _, _, rfl⟩ := net.mem_hosts.mp h
  exact net.host_ne_empty i

/-- A host as a text of four octets. -/
theorem exists_quad (h : ip ∈ net.hosts) :
    ∃ a b c d : UInt8, ip.toList = formatIPv4 [a, b, c, d] ∧ d.toNat ≠ 0 ∧ net.host d.toNat = ip := by
  obtain ⟨i, hLow, hHigh, rfl⟩ := net.mem_hosts.mp h
  obtain ⟨a, b, c, hOctets⟩ := net.octets
  have hOctet : (UInt8.ofNat i).toNat = i := UInt8.toNat_ofNat_of_lt' (by simp [UInt8.size]; omega)
  have hText := net.host_toList hOctets (UInt8.ofNat i)
  rw [hOctet] at hText
  exact ⟨a, b, c, UInt8.ofNat i, hText, by omega, by rw [hOctet]⟩

theorem exists_octet (h : ip ∈ net.hosts) :
    ∃ a b c d : UInt8, parseIP ip = some (ofV4 [a, b, c, d]) ∧ d.toNat ≠ 0 ∧
      net.host d.toNat = ip := by
  obtain ⟨a, b, c, d, hText, hHost⟩ := net.exists_quad h
  exact ⟨a, b, c, d, parseIP_quad hText, hHost⟩

theorem validateTunnelIPv4_of_mem_hosts (h : ip ∈ net.hosts) : validateTunnelIPv4 ip = true := by
  obtain ⟨a, b, c, d, hParse, _, _⟩ := net.exists_octet h
  rw [validateTunnelIPv4, hParse]
  simp [to4_ofV4]

/-- An address that passes the subnet check is one of the hosts. -/
theorem mem_hosts_of_inSubnet (h : net.inSubnet ip = true) : ip ∈ net.hosts := by
  obtain ⟨parsed, hParse, hV4, hText, hCovers, hReserved⟩ := Pool.inSubnet_cases h
  obtain ⟨tail, hTail⟩ := List.isPrefixOf_iff_prefix.mp hCovers
  simp only [Pool.reserved, Finset.mem_insert, Finset.mem_singleton, not_or] at hReserved
  obtain ⟨hServer, hZero, hLast⟩ := hReserved
  obtain ⟨a, b, c, hOctets⟩ := net.octets
  -- The text is that of four octets, and the first three are those of the subnet.
  obtain ⟨p, q, r, s, hFormat⟩ := quad_of_canonical hParse hV4 hText
  have hStart : formatIPv4 [a, b, c] ++ ('.' :: tail) = formatIPv4 [p, q, r, s] := by
    rw [← hFormat, ← hTail, String.toList_append, hOctets, List.append_assoc]
    rfl
  obtain ⟨hFirst, hTwo⟩ := formatIPv4_cons_inj hStart
  obtain ⟨hSecond, hOne⟩ := formatIPv4_cons_inj hTwo
  rw [formatIPv4_singleton, formatIPv4_cons] at hOne
  have hThird := octet_injective (split_at_dot (dot_notMem c) (dot_notMem r) hOne).1
  subst hFirst hSecond hThird
  have hHost : net.host s.toNat = ip := by
    rw [← String.ofList_toList (s := ip), hFormat, ← net.host_toList hOctets,
      String.ofList_toList]
  rw [mem_hosts]
  refine ⟨s.toNat, ?_, ?_, hHost⟩
  · -- Neither the network address nor the server.
    have hNotZero : s.toNat ≠ 0 := fun h0 => hZero (by rw [← hHost, h0])
    have hNotOne : s.toNat ≠ 1 := fun h1 => hServer (by rw [← hHost, h1, net.gateway]; rfl)
    omega
  · have hNotLast : s.toNat ≠ 255 := fun h255 => hLast (by rw [← hHost, h255])
    have hByte := s.toNat_lt
    omega

theorem notMem_reserved (h : ip ∈ net.hosts) : ip ∉ net.reserved :=
  net.toPool.notMem_reserved net.gateway h

/-- Every host passes the subnet check. -/
theorem inSubnet_of_mem_hosts (h : ip ∈ net.hosts) : net.inSubnet ip = true := by
  obtain ⟨a, b, c, d, hText, _⟩ := net.exists_quad h
  have hReserved := net.notMem_reserved h
  simp only [Pool.reserved, Finset.mem_insert, Finset.mem_singleton, not_or] at hReserved
  simp [Pool.inSubnet, parseIP_quad hText, to4_ofV4, ipString_quad hText, Pool.covers_of_mem_hosts h,
    hReserved]

/-- The text of an address of the /24 starts with the three octets. -/
def Covers (ip : String) : Prop := (net.subnetPrefix ++ ".").toList <+: ip.toList

instance (ip : String) : Decidable (net.Covers ip) := inferInstanceAs (Decidable (_ <+: _))

theorem covers_of_inSubnet (h : net.inSubnet ip = true) : net.Covers ip := by
  obtain ⟨_, _, _, _, hCovers, _⟩ := Pool.inSubnet_cases h
  exact List.isPrefixOf_iff_prefix.mp hCovers

/-- An address lies in one /24 only. -/
theorem not_covers_of_ne {net other : Subnet} (h : other.subnetPrefix ≠ net.subnetPrefix)
    (hOther : other.Covers ip) : ¬ net.Covers ip := by
  rintro ⟨tail, hTail⟩
  obtain ⟨tail', hTail'⟩ := hOther
  obtain ⟨a, b, c, hOctets⟩ := net.octets
  obtain ⟨p, q, r, hOctets'⟩ := other.octets
  have hSame := hTail.trans hTail'.symm
  simp only [String.toList_append, hOctets, hOctets', formatIPv4_cons, formatIPv4_singleton,
    List.append_assoc, List.cons_append, show ".".toList = ['.'] from rfl, List.nil_append] at hSame
  obtain ⟨hFirst, hSame⟩ := split_at_dot (dot_notMem a) (dot_notMem p) hSame
  obtain ⟨hSecond, hSame⟩ := split_at_dot (dot_notMem b) (dot_notMem q) hSame
  obtain ⟨hThird, _⟩ := split_at_dot (dot_notMem c) (dot_notMem r) hSame
  rw [← octet_injective hFirst, ← octet_injective hSecond, ← octet_injective hThird,
    ← hOctets] at hOctets'
  exact h (String.toList_inj.mp hOctets')

end Subnet

/-- An IPv6 address that a host was given, and what it was derived from. -/
theorem Server.tunnelIPv6_eq {d : UInt8} (hParse : parseIP ip = some (ofV4 [a, b, c, d]))
    (hSome : srv.tunnelIPv6 ip ≠ "") :
    ∃ base : IP, parseIP srv.serverIPv6 = some base ∧
      (srv.tunnelIPv6 ip).toList = formatIPv6 (base.set 15 d) := by
  unfold tunnelIPv6 at hSome ⊢
  split at hSome
  · exact absurd rfl hSome
  next hDual =>
    rw [if_neg hDual]
    cases hBase : parseIP srv.serverIPv6 with
    | none => simp [deriveTunnelIPv6, hParse, hBase] at hSome
    | some base =>
        by_cases hMapped : (to4 base).isSome = true
        · simp [deriveTunnelIPv6, hParse, hBase, hMapped] at hSome
        · have hDerive : deriveTunnelIPv6 srv.serverIPv6 ip = some (ipString (base.set 15 d)) := by
            simp [deriveTunnelIPv6, hParse, to4_ofV4, hBase, hMapped]
          rw [hDerive] at hSome ⊢
          refine ⟨base, rfl, ?_⟩
          dsimp only at hSome ⊢
          split at hSome
          next hValid =>
            rw [if_pos hValid, ipString]
            have hNone : to4 (base.set 15 d) = none := by
              rw [← Option.isNone_iff_eq_none, ← Option.not_isSome, to4_set_last]
              simpa using hMapped
            rw [hNone]
            exact String.toList_ofList
          · exact absurd rfl hSome

/-- A server with an IPv6 gateway gives every host an IPv6 address. -/
theorem Server.tunnelIPv6_ne_empty {net : Subnet} {base : IP}
    (hBase : parseIP srv.serverIPv6 = some base) (hV6 : to4 base = none) (hIP : ip ∈ net.hosts) :
    srv.tunnelIPv6 ip ≠ "" := by
  obtain ⟨a, b, c, d, hParse, _, _⟩ := net.exists_octet hIP
  have hServer : srv.serverIPv6 ≠ "" := by
    intro hEmpty
    rw [hEmpty] at hBase
    cases hBase
  have hNone : to4 (base.set 15 d) = none := by
    rw [← Option.isNone_iff_eq_none, ← Option.not_isSome, to4_set_last, hV6]
    rfl
  have hText : parseIP (ipString (base.set 15 d)) = some (base.set 15 d) :=
    parseIP_ipString (by rw [List.length_set, length_of_parseIP hBase]) hNone
  have hDerive : deriveTunnelIPv6 srv.serverIPv6 ip = some (ipString (base.set 15 d)) := by
    simp [deriveTunnelIPv6, hParse, to4_ofV4, hBase, hV6]
  have hValid : validateTunnelIPv6 (ipString (base.set 15 d)) = true := by
    rw [validateTunnelIPv6, hText]
    simp [hNone]
  rw [tunnelIPv6, if_neg hServer, hDerive]
  dsimp only
  rw [if_pos hValid]
  intro hEmpty
  rw [hEmpty] at hText
  cases hText

theorem Server.validate_tunnelIPv6 (h : srv.tunnelIPv6 ip ≠ "") :
    validateTunnelIPv6 (srv.tunnelIPv6 ip) = true := by
  unfold tunnelIPv6 at h ⊢
  split at h
  · exact absurd rfl h
  next hDual =>
    rw [if_neg hDual]
    split at h
    · split at h
      next hValid => rwa [if_pos hValid]
      · exact absurd rfl h
    · exact absurd rfl h

/-- A host is no IPv6 address. -/
theorem Server.tunnelIPv6_notMem_hosts (net : Subnet) (h : srv.tunnelIPv6 ip ≠ "") :
    srv.tunnelIPv6 ip ∉ net.hosts := by
  intro hHost
  have hV4 := net.validateTunnelIPv4_of_mem_hosts hHost
  have hV6 := Server.validate_tunnelIPv6 h
  unfold validateTunnelIPv4 at hV4
  unfold validateTunnelIPv6 at hV6
  cases hParse : parseIP (srv.tunnelIPv6 ip) with
  | none =>
      rw [hParse] at hV4
      cases hV4
  | some parsed =>
      rw [hParse] at hV4 hV6
      simp only [Option.isNone_iff_eq_none] at hV6
      simp [hV6] at hV4

/-- Different hosts have different IPv6 addresses, if they have any. -/
theorem Server.tunnelIPv6_injective {net : Subnet} {other : String} (hIP : ip ∈ net.hosts)
    (hOther : other ∈ net.hosts) (hSome : srv.tunnelIPv6 ip ≠ "")
    (h : srv.tunnelIPv6 ip = srv.tunnelIPv6 other) : ip = other := by
  obtain ⟨_, _, _, d, hParse, hd, rfl⟩ := net.exists_octet hIP
  obtain ⟨_, _, _, e, hParseOther, he, rfl⟩ := net.exists_octet hOther
  obtain ⟨base, hBase, hText⟩ := Server.tunnelIPv6_eq hParse hSome
  obtain ⟨_, hBaseOther, hTextOther⟩ := Server.tunnelIPv6_eq hParseOther (h ▸ hSome)
  cases hBase.symm.trans hBaseOther
  rw [h, hTextOther] at hText
  rw [formatIPv6_set_last (length_of_parseIP hBase) he hd hText]

end WireGuard
