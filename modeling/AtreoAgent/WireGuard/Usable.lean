import AtreoAgent.WireGuard.Leaks

/-! Whether the addresses that are handed out can be used. `TryAdopt` and `MarkUsed` take only
addresses that pass the subnet check, and `Allocate` makes them if the subnet is one of three
octets. `Load` looks at the start of the text only. -/
namespace WireGuard

open Codec Atreolink Net Acl Machine

/-- Two texts split alike at their last dot. -/
theorem split_at_last_dot {xs ys us vs : List Char} (hu : '.' ∉ us) (hv : '.' ∉ vs)
    (h : xs ++ '.' :: us = ys ++ '.' :: vs) : xs = ys ∧ us = vs := by
  have hReverse := congrArg List.reverse h
  simp only [List.reverse_append, List.reverse_cons, List.append_assoc, List.singleton_append]
    at hReverse
  obtain ⟨hRight, hLeft⟩ := split_at_dot (by simpa using hu) (by simpa using hv) hReverse
  exact ⟨List.reverse_injective hLeft, List.reverse_injective hRight⟩

namespace Pool

/-- The subnet is given by three octets. -/
def Octets (p : Pool) : Prop := ∃ a b c : UInt8, p.subnetPrefix.toList = formatIPv4 [a, b, c]

/-- An address that passes the subnet check. `AddPeer` does not refuse it, and an IPv6 address
is derived from it under every IPv6 server address. -/
structure Usable (p : Pool) (ip : String) : Prop where
  inSubnet : p.inSubnet ip = true
  peer : ∀ (srv : Server) exec peers key, srv.addPeer exec peers key ip ≠ .error .tunnelIP
  derived : ∀ serverIPv6 base, parseIP serverIPv6 = some base → to4 base = none →
    (deriveTunnelIPv6 serverIPv6 ip).isSome = true

section Check

variable {p : Pool} {ip : String}

theorem ne_empty_of_covers (h : p.covers ip = true) : ip ≠ "" := by
  rintro rfl
  rw [covers, List.isPrefixOf_iff_prefix] at h
  simp at h

theorem usable_iff : p.Usable ip ↔ p.inSubnet ip = true := by
  refine ⟨fun h => h.inSubnet, fun h => ⟨h, ?_, ?_⟩⟩
  · obtain ⟨parsed, hParse, hV4, _, _⟩ := inSubnet_cases h
    intro srv exec peers key
    have hValid : validateTunnelIPv4 ip = true := by
      rw [validateTunnelIPv4, hParse]
      exact hV4
    rw [Server.addPeer, hValid, Bool.not_true, if_neg Bool.false_ne_true]
    split
    · simp
    · split <;> simp
  · obtain ⟨parsed, hParse, hV4, _, _⟩ := inSubnet_cases h
    intro serverIPv6 base hBase hV6
    obtain ⟨quad, hQuad⟩ := Option.isSome_iff_exists.mp hV4
    simp [deriveTunnelIPv6, hParse, hQuad, hBase, hV6]

/-- A host that is not reserved passes the check just if the subnet is one of three octets. -/
theorem inSubnet_host_iff (hHost : ip ∈ p.hosts) (hReserved : ip ∉ p.reserved) :
    p.inSubnet ip = true ↔ p.Octets := by
  obtain ⟨i, hRange, rfl⟩ := List.mem_map.mp hHost
  obtain ⟨hLow, hHigh⟩ := List.mem_range'_1.mp hRange
  have hOctet : (UInt8.ofNat i).toNat = i := UInt8.toNat_ofNat_of_lt' (by simp [UInt8.size]; omega)
  constructor
  · intro h
    obtain ⟨parsed, hParse, hV4, hText, _⟩ := inSubnet_cases h
    obtain ⟨a, b, c, d, hFormat⟩ := quad_of_canonical hParse hV4 hText
    refine ⟨a, b, c, ?_⟩
    have hDot := dot_notMem (UInt8.ofNat i)
    rw [hOctet] at hDot
    have hSplit : p.subnetPrefix.toList ++ '.' :: (toString i).toList =
        formatIPv4 [a, b, c] ++ '.' :: (toString d.toNat).toList := by
      have hText : (p.host i).toList = p.subnetPrefix.toList ++ '.' :: (toString i).toList := by
        rw [host, String.toList_append, String.toList_append, List.append_assoc]
        rfl
      rw [← hText, hFormat]
      simp only [formatIPv4_cons, formatIPv4_singleton, List.append_assoc, List.cons_append]
    exact (split_at_last_dot hDot (dot_notMem d) hSplit).1
  · rintro ⟨a, b, c, hOctets⟩
    have hQuad : (p.host i).toList = formatIPv4 [a, b, c, UInt8.ofNat i] := by
      have hNumber := numbered_toList hOctets (UInt8.ofNat i)
      rwa [hOctet] at hNumber
    have hCovers := covers_of_mem_hosts hHost
    simp only [reserved, Finset.mem_insert, Finset.mem_singleton, not_or] at hReserved
    simp [Pool.inSubnet, parseIP_quad hQuad, to4_ofV4, ipString_quad hQuad, hCovers, hReserved]

end Check

section Loads

variable {p : Pool} {a : Allocator} {entries : List (String × String)}

theorem lookup_load_of_notMem {key : String} (h : key ∉ entries.map (·.1)) :
    (p.load a entries).allocated.lookup key = a.allocated.lookup key := by
  induction entries generalizing a with
  | nil => rfl
  | cons e entries ih =>
      rw [List.map_cons, List.mem_cons, not_or] at h
      rw [load, List.foldl_cons, ← load, ih h.2]
      rcases loadEntry_cases p a e with ⟨_, _, hBound⟩ | ⟨_, hSame⟩
      · rw [hBound, Allocator.lookup_bind, if_neg h.1]
      · rw [hSame]

/-- A binding is an old one or a free entry of the file. -/
theorem lookup_load {key ip : String} (h : (p.load a entries).allocated.lookup key = some ip) :
    a.allocated.lookup key = some ip ∨
      ((key, ip) ∈ entries ∧ p.covers ip = true ∧ ip ∉ a.usedIPs) := by
  induction entries generalizing a with
  | nil => exact Or.inl h
  | cons e entries ih =>
      rw [load, List.foldl_cons, ← load] at h
      rcases loadEntry_cases p a e with ⟨hCovers, hUnused, hBound⟩ | ⟨_, hSame⟩
      · rw [hBound] at h
        rcases ih h with hOld | ⟨hMem, hText, hFree⟩
        · rw [Allocator.lookup_bind] at hOld
          split at hOld
          next hKey =>
            cases hOld
            subst hKey
            exact Or.inr ⟨List.mem_cons_self, hCovers, hUnused⟩
          next => exact Or.inl hOld
        · exact Or.inr ⟨List.mem_cons_of_mem _ hMem, hText,
            fun hUsed => hFree (Finset.mem_insert_of_mem hUsed)⟩
      · rw [hSame] at h
        rcases ih h with hOld | ⟨hMem, hText, hFree⟩
        · exact Or.inl hOld
        · exact Or.inr ⟨List.mem_cons_of_mem _ hMem, hText, hFree⟩

/-- Every address of the file that is free and starts like the subnet goes to some key. -/
theorem exists_holder_load (hDistinct : (entries.map (·.1)).Nodup) {e : String × String}
    (hMem : e ∈ entries) (hCovers : p.covers e.2 = true) (hUnused : e.2 ∉ a.usedIPs) :
    ∃ key, (p.load a entries).allocated.lookup key = some e.2 := by
  induction entries generalizing a with
  | nil => cases hMem
  | cons f entries ih =>
      obtain ⟨hFirst, hRest⟩ := List.nodup_cons.mp hDistinct
      rw [load, List.foldl_cons, ← load]
      rcases loadEntry_cases p a f with ⟨_, _, hBound⟩ | ⟨hNot, hSame⟩
      · rw [hBound]
        by_cases hValue : e.2 = f.2
        · refine ⟨f.1, ?_⟩
          rw [lookup_load_of_notMem hFirst, Allocator.lookup_bind, if_pos rfl, hValue]
        · have hLater : e ∈ entries := by
            rcases List.mem_cons.mp hMem with rfl | hLater
            · exact absurd rfl hValue
            · exact hLater
          refine ih hRest hLater fun hUsed => ?_
          rcases Finset.mem_insert.mp hUsed with hNew | hOld
          · exact hValue hNew
          · exact hUnused hOld
      · rw [hSame]
        rcases List.mem_cons.mp hMem with rfl | hLater
        · exact absurd ⟨hCovers, hUnused⟩ hNot
        · exact ih hRest hLater hUnused

end Loads

/-- A call that hands out usable addresses only: where a host is free, `Allocate` takes it for
a new key under three octets, and what `Load` takes from the file passes the subnet check. -/
def Proper (p : Pool) (s : Stored) : Call → Prop
  | .made (.allocate key) =>
      s.allocator.allocated.lookup key = none → (∃ ip ∈ p.hosts, ip ∉ s.allocator.usedIPs) → p.Octets
  | .load _ =>
      ∀ m, s.file = .parsed m → ∀ key ip, m.lookup key = some ip → p.covers ip = true →
        ip ∉ s.allocator.usedIPs → p.inSubnet ip = true
  | _ => True

/-- Every address in the table passes the subnet check. -/
def AllIn (p : Pool) (a : Allocator) : Prop :=
  ∀ key ip, a.allocated.lookup key = some ip → p.inSubnet ip = true

section Calls

theorem lookup_of_allocate {p : Pool} {a b : Allocator} {key ip : String}
    (h : p.allocate a key = some (b, ip)) : b.allocated.lookup key = some ip := by
  rcases allocate_cases p a key with ⟨held, hHeld, hSame⟩ | ⟨_, _, hFull⟩ | ⟨host, _, _, hBound⟩
  · rw [hSame] at h
    cases h
    exact hHeld
  · rw [hFull] at h
    cases h
  · rw [hBound] at h
    cases h
    exact (Allocator.lookup_bind _ _ _ _).trans (if_pos rfl)

variable {p : Pool} {s : Stored} {c : Call}

theorem AllIn.bind {a : Allocator} (h : p.AllIn a) {ip : String} (hIP : p.inSubnet ip = true)
    (key : String) : p.AllIn (a.bind key ip) := by
  intro other held hHeld
  rw [Allocator.lookup_bind] at hHeld
  split at hHeld
  · cases hHeld
    exact hIP
  · exact h other held hHeld

theorem AllIn.op {a : Allocator} (h : p.AllIn a) (hSafe : p.Safe a) {op : Op}
    (hProper : ∀ key, op = .allocate key → a.allocated.lookup key = none →
      (∃ ip ∈ p.hosts, ip ∉ a.usedIPs) → p.Octets) : p.AllIn (op.apply p a) := by
  cases op with
  | allocate key =>
      rw [Op.apply]
      rcases allocate_cases p a key with
        ⟨ip, _, hSame⟩ | ⟨_, _, hFull⟩ | ⟨ip, hNone, hFree, hBound⟩
      · rw [hSame]
        exact h
      · rw [hFull]
        exact h
      · obtain ⟨hHost, hUnused⟩ := mem_free.mp hFree
        have hOctets := hProper key rfl hNone ⟨ip, hHost, hUnused⟩
        have hReserved : ip ∉ p.reserved := fun hKept => hUnused (hSafe.kept hKept)
        rw [hBound]
        exact h.bind ((inSubnet_host_iff hHost hReserved).mpr hOctets) key
  | tryAdopt key ip =>
      rw [Op.apply]
      cases hAdopt : p.tryAdopt a key ip with
      | none => exact h
      | some b =>
          rcases tryAdopt_cases hAdopt with ⟨rfl, _⟩ | ⟨rfl, _, hIP, _⟩
          · exact h
          · exact h.bind hIP key
  | markUsed key ip =>
      rw [Op.apply]
      by_cases hFree : p.inSubnet ip = true ∧ ip ∉ a.usedIPs
      · rw [markUsed_of_free hFree.1 hFree.2]
        split
        · exact h
        · exact h.bind hFree.1 key
      · rw [markUsed_of_not_free hFree]
        exact h
  | release key =>
      intro other held hHeld
      rw [Op.apply, Allocator.lookup_release] at hHeld
      split at hHeld
      · cases hHeld
      · exact h other held hHeld

/-- A proper call keeps the table in the subnet. -/
theorem AllIn.call (h : p.AllIn s.allocator) (hSafe : p.Safe s.allocator)
    (hProper : p.Proper s c) : p.AllIn (c.apply p s).allocator := by
  cases c with
  | made op =>
      refine h.op hSafe fun key hOp => ?_
      subst hOp
      exact hProper
  | save written => cases written <;> exact h
  | load walk =>
      rw [Call.apply]
      split
      next m hFile =>
        intro key ip hHeld
        rcases lookup_load hHeld with hOld | ⟨hMem, hCovers, hUnused⟩
        · exact h key ip hOld
        · exact hProper m hFile key ip ((walk.entries m key ip).mp hMem) hCovers hUnused
      next => exact h
      next => exact h
  | replaced file => exact h

/-- A call after which the addresses in the table pass the check was proper. -/
theorem proper_of_lookup (hSafe : p.Safe s.allocator)
    (h : ∀ key, (c.apply p s).allocator.lookup key ≠ "" →
      p.inSubnet ((c.apply p s).allocator.lookup key) = true) : p.Proper s c := by
  have hTable : ∀ key ip, (c.apply p s).allocator.allocated.lookup key = some ip → ip ≠ "" →
      p.inSubnet ip = true := by
    intro key ip hHeld hSome
    have hLookup : (c.apply p s).allocator.lookup key = ip := by
      rw [Allocator.lookup, hHeld, Option.getD_some]
    rw [← hLookup] at hSome ⊢
    exact h key hSome
  cases c with
  | save written => trivial
  | replaced file => trivial
  | load walk =>
      intro m hFile key ip hEntry hCovers hUnused
      rw [Call.apply, hFile] at hTable
      obtain ⟨holder, hHolder⟩ := exists_holder_load (e := (key, ip)) (walk.distinct m)
        ((walk.entries m key ip).mpr hEntry) hCovers hUnused
      exact hTable holder ip hHolder (ne_empty_of_covers hCovers)
  | made op =>
      cases op with
      | tryAdopt key ip => trivial
      | markUsed key ip => trivial
      | release key => trivial
      | allocate key =>
          rintro hNone ⟨host, hHost, hNotUsed⟩
          rcases allocate_cases p s.allocator key with
            ⟨ip, hHeld, _⟩ | ⟨_, hFull, _⟩ | ⟨ip, _, hFree, hBound⟩
          · cases hNone.symm.trans hHeld
          · exact absurd (hosts_used hFull host hHost) hNotUsed
          · obtain ⟨hHost, hUnused⟩ := mem_free.mp hFree
            have hReserved : ip ∉ p.reserved := fun hKept => hUnused (hSafe.kept hKept)
            refine (inSubnet_host_iff hHost hReserved).mp
              (hTable key ip ?_ (ne_empty_of_covers (covers_of_mem_hosts hHost)))
            rw [Call.apply, Op.apply, hBound]
            exact (Allocator.lookup_bind _ _ _ _).trans (if_pos rfl)

end Calls

/-- The addresses that `Lookup` and `Allocate` return are usable just if every call is proper. -/
theorem handed_out_usable_iff (p : Pool) (file : File (StringMap String)) (calls : List Call) :
    ((∀ n key, (run (Call.apply p) ⟨p.fresh, file⟩ (calls.take n)).allocator.lookup key ≠ "" →
        p.Usable ((run (Call.apply p) ⟨p.fresh, file⟩ (calls.take n)).allocator.lookup key)) ∧
      ∀ n key b ip, calls[n]? = some (.made (.allocate key)) →
        p.allocate (run (Call.apply p) ⟨p.fresh, file⟩ (calls.take n)).allocator key = some (b, ip) →
        p.Usable ip) ↔
    Meets (Call.apply p) p.Proper ⟨p.fresh, file⟩ calls := by
  constructor
  · rintro ⟨hLookup, _⟩
    refine meets_of_getElem fun n c hCall => proper_of_lookup (Safe.run (safe_fresh p) _) ?_
    intro key hSome
    have hNext := hLookup (n + 1) key
    rw [run_take_succ hCall] at hNext
    exact (hNext hSome).inSubnet
  · intro h
    have hKept : ∀ n, p.AllIn (run (Call.apply p) ⟨p.fresh, file⟩ (calls.take n)).allocator := by
      intro n
      have hBoth := invariant_run (fun s : Stored => p.Safe s.allocator ∧ p.AllIn s.allocator)
        (fun s c hInv hProper => ⟨hInv.1.changes (c.changes p s), hInv.2.call hInv.1 hProper⟩)
        ⟨safe_fresh p, fun key ip hHeld => by simp [fresh] at hHeld⟩ (h.take n)
      exact hBoth.2
    refine ⟨fun n key hSome => ?_, fun n key b ip hCall hAllocate => ?_⟩
    · rw [usable_iff]
      rw [Allocator.lookup] at hSome ⊢
      cases hHeld : Finmap.lookup key
          (run (Call.apply p) ⟨p.fresh, file⟩ (calls.take n)).allocator.allocated with
      | none =>
          rw [hHeld] at hSome
          exact absurd rfl hSome
      | some ip =>
          rw [Option.getD_some]
          exact hKept n key ip hHeld
    · have hNext := hKept (n + 1) key ip
      rw [run_take_succ hCall, Call.apply, Op.apply, hAllocate] at hNext
      rw [usable_iff]
      exact hNext (lookup_of_allocate hAllocate)

/-- A state file with an entry that is no address. -/
def wordFile : File (StringMap String) := .parsed (Finmap.singleton "k" "100.64.0.foo")

theorem load_wordFile :
    run (Call.apply legacy) ⟨legacy.fresh, wordFile⟩ [.load Walk.sorted] =
      ⟨legacy.fresh.bind "k" "100.64.0.foo", wordFile⟩ := by
  have hOrder : Walk.sorted.order (Finmap.singleton "k" "100.64.0.foo") = [("k", "100.64.0.foo")] := by
    simp [Walk.sorted]
  have hTaken : legacy.loadEntry legacy.fresh ("k", "100.64.0.foo") =
      legacy.fresh.bind "k" "100.64.0.foo" := if_pos (by decide +kernel)
  rw [run_cons, run_nil, Call.apply, wordFile]
  dsimp only
  rw [hOrder, load, List.foldl_cons, List.foldl_nil, hTaken]

/-- `Lookup` returns what stands in the file. -/
theorem word_is_handed_out :
    (run (Call.apply legacy) ⟨legacy.fresh, wordFile⟩ [.load Walk.sorted]).allocator.lookup "k" =
      "100.64.0.foo" ∧ legacy.inSubnet "100.64.0.foo" = false ∧
    validateTunnelIPv4 "100.64.0.foo" = false := by
  rw [load_wordFile]
  refine ⟨?_, by decide +kernel, by decide +kernel⟩
  rw [Allocator.lookup, Allocator.lookup_bind, if_pos rfl, Option.getD_some]

end Pool

end WireGuard
