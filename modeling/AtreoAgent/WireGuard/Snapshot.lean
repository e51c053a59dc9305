import AtreoAgent.WireGuard.Bindings

/-! The allocator at startup: what its state file leaves in it, and what marking the
addresses of the access list adds. An address that another key holds is not marked, and
the key that it belongs to then holds none or an older one. -/
namespace WireGuard

open Codec Atreolink Net

namespace Allocator

variable {net : Subnet} {a : Allocator}

variable {entries : List (String × String)} {key ip : String} {cs : List ClientRecord}

/-- A state file with distinct keys is loaded without leaving an address behind. -/
theorem separate_load (hKeys : (entries.map (·.1)).Nodup) (hSeparate : a.Separate)
    (hAccounted : a.Accounted net) (hNew : ∀ e ∈ entries, a.allocated.lookup e.1 = none) :
    (a.load net entries).Separate ∧ (a.load net entries).Accounted net := by
  induction entries generalizing a with
  | nil => exact ⟨hSeparate, hAccounted⟩
  | cons e entries ih =>
      obtain ⟨hFirst, hRest⟩ := List.nodup_cons.mp hKeys
      rw [load, Pool.load, List.foldl_cons]
      rcases net.loadEntry_cases a e with ⟨_, hUnused, hBound⟩ | ⟨_, hSame⟩
      · rw [hBound]
        refine ih hRest (hSeparate.bind hUnused e.1)
          (hAccounted.bind (hNew e List.mem_cons_self) e.2) fun other hOther => ?_
        rw [lookup_bind, if_neg, hNew other (List.mem_cons_of_mem _ hOther)]
        intro hSame
        exact hFirst (List.mem_map.mpr ⟨other, hOther, hSame⟩)
      · rw [hSame]
        exact ih hRest hSeparate hAccounted fun other hOther => hNew other (List.mem_cons_of_mem _ hOther)

theorem separate_load_new (net : Subnet) (hKeys : (entries.map (·.1)).Nodup) :
    ((new net).load net entries).Separate ∧ ((new net).load net entries).Accounted net := by
  refine separate_load hKeys (separate_fresh net.toPool) (fun ip hUsed hNot => ?_) fun e _ => ?_
  · exact absurd hUsed hNot
  · exact Finmap.lookup_empty e.1

theorem markUsed_eq (hKey : key ≠ "") (hSubnet : net.inSubnet ip = true) :
    a.markUsed net key ip = if ip ∈ a.usedIPs then a else a.bind key ip := by
  simp [markUsed, Pool.markUsed, hSubnet, hKey]

theorem lookup_markUsed (hKey : key ≠ "") (hSubnet : net.inSubnet ip = true) (other : String) :
    (a.markUsed net key ip).allocated.lookup other =
      if other = key ∧ ip ∉ a.usedIPs then some ip else a.allocated.lookup other := by
  rw [markUsed_eq hKey hSubnet]
  by_cases hUsed : ip ∈ a.usedIPs
  · simp [hUsed]
  · simp [hUsed, lookup_bind]

theorem mem_used_markUsed {other : String} (hKey : key ≠ "") (hSubnet : net.inSubnet ip = true)
    (hNe : other ≠ ip) : other ∈ (a.markUsed net key ip).usedIPs ↔ other ∈ a.usedIPs := by
  rw [markUsed_eq hKey hSubnet]
  split
  · rfl
  · simp [Allocator.bind, hNe]

/-- Mark the addresses of client records. -/
def markAll (net : Subnet) (a : Allocator) (cs : List ClientRecord) : Allocator :=
  cs.foldl (fun a c => a.markUsed net c.wgPublicKey c.tunnelIP) a

/-- Records with addresses of other subnets are passed over. -/
theorem markAll_of_outside (h : ∀ c ∈ cs, net.inSubnet c.tunnelIP = false) :
    a.markAll net cs = a := by
  induction cs with
  | nil => rfl
  | cons c cs ih =>
      have hSame : a.markUsed net c.wgPublicKey c.tunnelIP = a := by
        simp [markUsed, Pool.markUsed, h c List.mem_cons_self]
      rw [markAll, List.foldl_cons, hSame]
      exact ih fun d hd => h d (List.mem_cons_of_mem _ hd)

/-- So are the entries of a file that was written under another subnet. -/
theorem load_of_outside (h : ∀ e ∈ entries, ¬ net.Covers e.2) : a.load net entries = a := by
  induction entries with
  | nil => rfl
  | cons e entries ih =>
      have hSame : net.loadEntry a e = a := by
        rcases net.loadEntry_cases a e with ⟨hCovers, _⟩ | ⟨_, hSame⟩
        · exact absurd (List.isPrefixOf_iff_prefix.mp hCovers) (h e List.mem_cons_self)
        · exact hSame
      rw [load, Pool.load, List.foldl_cons, hSame]
      exact ih fun f hf => h f (List.mem_cons_of_mem _ hf)

theorem separate_markAll (hKeys : ∀ c ∈ cs, c.wgPublicKey ≠ "")
    (hSubnet : ∀ c ∈ cs, net.inSubnet c.tunnelIP = true) (h : a.Separate) :
    (a.markAll net cs).Separate := by
  induction cs generalizing a with
  | nil => exact h
  | cons c cs ih =>
      rw [markAll, List.foldl_cons, ← markAll,
        markUsed_eq (hKeys c List.mem_cons_self) (hSubnet c List.mem_cons_self)]
      refine ih (fun d hd => hKeys d (List.mem_cons_of_mem _ hd))
        (fun d hd => hSubnet d (List.mem_cons_of_mem _ hd)) ?_
      split
      · exact h
      next hUnused => exact h.bind hUnused c.wgPublicKey

/-- What marking leaves for one key: its address if that was free, and else what it had. -/
theorem lookup_markAll (hKeys : ∀ c ∈ cs, c.wgPublicKey ≠ "")
    (hSubnet : ∀ c ∈ cs, net.inSubnet c.tunnelIP = true)
    (hDistinct : (cs.map (·.wgPublicKey)).Nodup) (hApart : (cs.map (·.tunnelIP)).Nodup) :
    (∀ key ∉ cs.map (·.wgPublicKey),
      (a.markAll net cs).allocated.lookup key = a.allocated.lookup key) ∧
    ∀ c ∈ cs, (a.markAll net cs).allocated.lookup c.wgPublicKey =
      if c.tunnelIP ∈ a.usedIPs then a.allocated.lookup c.wgPublicKey else some c.tunnelIP := by
  induction cs generalizing a with
  | nil => exact ⟨fun _ _ => rfl, fun c hc => by cases hc⟩
  | cons c cs ih =>
      obtain ⟨hNew, hRest⟩ := List.nodup_cons.mp hDistinct
      obtain ⟨hNewIP, hRestIP⟩ := List.nodup_cons.mp hApart
      have hKey := hKeys c List.mem_cons_self
      have hIn := hSubnet c List.mem_cons_self
      obtain ⟨hOthers, hMarked⟩ := @ih (a.markUsed net c.wgPublicKey c.tunnelIP)
        (fun d hd => hKeys d (List.mem_cons_of_mem _ hd))
        (fun d hd => hSubnet d (List.mem_cons_of_mem _ hd)) hRest hRestIP
      rw [markAll, List.foldl_cons, ← markAll]
      refine ⟨fun key hOther => ?_, fun d hd => ?_⟩
      · rw [List.map_cons, List.mem_cons, not_or] at hOther
        rw [hOthers key hOther.2, lookup_markUsed hKey hIn, if_neg fun hSame => hOther.1 hSame.1]
      · rcases List.mem_cons.mp hd with rfl | hd
        · rw [hOthers _ hNew, lookup_markUsed hKey hIn]
          by_cases hUsed : d.tunnelIP ∈ a.usedIPs <;> simp [hUsed]
        · -- Neither the key nor the address of a later record is that of the first one.
          have hOther : d.wgPublicKey ≠ c.wgPublicKey := fun hSame =>
            hNew (List.mem_map.mpr ⟨d, hd, hSame⟩)
          have hOtherIP : d.tunnelIP ≠ c.tunnelIP := fun hSame =>
            hNewIP (List.mem_map.mpr ⟨d, hd, hSame⟩)
          have hLookup := lookup_markUsed (a := a) hKey hIn d.wgPublicKey
          rw [if_neg fun hSame => hOther hSame.1] at hLookup
          simp only [hMarked d hd, hLookup, mem_used_markUsed hKey hIn hOtherIP]

/-- After marking, a key holds the address of its record exactly if no other key held
that address before. -/
theorem lookup_markAll_iff (hSeparate : a.Separate) (hAccounted : a.Accounted net)
    (hKeys : ∀ c ∈ cs, c.wgPublicKey ≠ "") (hSubnet : ∀ c ∈ cs, net.inSubnet c.tunnelIP = true)
    (hDistinct : (cs.map (·.wgPublicKey)).Nodup) (hApart : (cs.map (·.tunnelIP)).Nodup)
    {c : ClientRecord} (hc : c ∈ cs) :
    (a.markAll net cs).allocated.lookup c.wgPublicKey = some c.tunnelIP ↔
      ∀ key, a.allocated.lookup key = some c.tunnelIP → key = c.wgPublicKey := by
  rw [(lookup_markAll hKeys hSubnet hDistinct hApart).2 c hc]
  split
  next hUsed =>
    constructor
    · intro hHeld key hKey
      exact hSeparate.injective _ _ _ hKey hHeld
    · intro hOnly
      obtain ⟨key, hKey⟩ := hAccounted _ hUsed (Pool.notMem_reserved_of_inSubnet (hSubnet c hc))
      rw [← hOnly key hKey, hKey]
  next hUnused =>
    refine iff_of_true rfl fun key hKey => ?_
    exact absurd (hSeparate.used key _ hKey) hUnused

end Allocator

end WireGuard
