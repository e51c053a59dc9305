import AtreoAgent.Machine.Table
import AtreoAgent.WireGuard.Addresses
import Mathlib.Logic.Relation

/-! What the allocator is for: a partial assignment of hosts to keys that never gives two
keys one host. Binding and releasing are the two operations of such an assignment; the
set of used addresses says which hosts are left. -/
namespace WireGuard

open Codec Atreolink Net

namespace Pool

/-- The hosts that are not in use. -/
def free (p : Pool) (a : Allocator) : Finset String := p.hosts.toFinset \ a.usedIPs

variable {p : Pool} {a b : Allocator} {key ip : String}

theorem mem_free : ip ∈ p.free a ↔ ip ∈ p.hosts ∧ ip ∉ a.usedIPs := by
  simp [free]

theorem hosts_used (h : p.free a = ∅) : ∀ ip ∈ p.hosts, ip ∈ a.usedIPs :=
  fun _ hHost => Finset.sdiff_eq_empty_iff_subset.mp h (List.mem_toFinset.mpr hHost)

/-- An adopted address passes the check and is not in use, and the key held none. -/
theorem tryAdopt_cases (h : p.tryAdopt a key ip = some b) :
    (b = a ∧ a.allocated.lookup key = some ip) ∨
      (b = a.bind key ip ∧ a.allocated.lookup key = none ∧ p.inSubnet ip = true ∧
        ip ∉ a.usedIPs) := by
  rw [tryAdopt] at h
  split at h
  · cases h
  next hCheck =>
    have hSubnet : p.inSubnet ip = true := by
      simp only [Bool.or_eq_true, decide_eq_true_eq, Bool.not_eq_true', not_or] at hCheck
      simpa using hCheck.2
    split at h
    next held hHeld =>
      split at h
      next hSame =>
        cases h
        exact Or.inl ⟨rfl, by rw [hHeld, hSame]⟩
      · cases h
    next hNone =>
      split at h
      · cases h
      next hUnused =>
        cases h
        exact Or.inr ⟨rfl, hNone, hSubnet, fun hUsed => hUnused (Or.inr hUsed)⟩

/-- `Allocate` gives the address that is held, fails with no free host, or binds a free host. -/
theorem allocate_cases (p : Pool) (a : Allocator) (key : String) :
    (∃ ip, a.allocated.lookup key = some ip ∧ p.allocate a key = some (a, ip)) ∨
    (a.allocated.lookup key = none ∧ p.free a = ∅ ∧ p.allocate a key = none) ∨
    ∃ ip, a.allocated.lookup key = none ∧ ip ∈ p.free a ∧
      p.allocate a key = some (a.bind key ip, ip) := by
  rw [allocate]
  cases hHeld : a.allocated.lookup key with
  | some ip => exact Or.inl ⟨ip, rfl, rfl⟩
  | none =>
      dsimp only
      cases hFind : p.hosts.find? (· ∉ a.usedIPs) with
      | none =>
          refine Or.inr (Or.inl ⟨rfl, ?_, rfl⟩)
          rw [List.find?_eq_none] at hFind
          refine Finset.eq_empty_of_forall_notMem fun ip hip => ?_
          obtain ⟨hHost, hUnused⟩ := mem_free.mp hip
          exact hFind ip hHost (by simpa using hUnused)
      | some ip =>
          have hUnused : ip ∉ a.usedIPs := by simpa using List.find?_some hFind
          exact Or.inr (Or.inr ⟨ip, rfl,
            mem_free.mpr ⟨List.mem_of_find?_eq_some hFind, hUnused⟩, rfl⟩)

theorem loadEntry_cases (p : Pool) (a : Allocator) (e : String × String) :
    (p.covers e.2 = true ∧ e.2 ∉ a.usedIPs ∧ p.loadEntry a e = a.bind e.1 e.2) ∨
      (¬(p.covers e.2 = true ∧ e.2 ∉ a.usedIPs) ∧ p.loadEntry a e = a) := by
  rw [loadEntry]
  by_cases hTaken : p.covers e.2 = true ∧ e.2 ∉ a.usedIPs
  · exact Or.inl ⟨hTaken.1, hTaken.2, if_pos (by simpa using hTaken)⟩
  · exact Or.inr ⟨hTaken, if_neg (by simpa using hTaken)⟩

end Pool

namespace Allocator

/-- The assignment the allocator keeps. -/
def assignment (a : Allocator) : String → Option String := fun key => a.allocated.lookup key

abbrev free (net : Subnet) (a : Allocator) : Finset String := net.toPool.free a

variable {net : Subnet} {a b : Allocator} {key ip : String}

theorem free_bind (net : Subnet) (a : Allocator) (key ip : String) :
    free net (a.bind key ip) = (free net a).erase ip := by
  ext other
  simp only [Pool.mem_free, Allocator.bind, Finset.mem_erase, Finset.mem_insert, not_or]
  tauto

theorem assignment_bind (a : Allocator) (key ip : String) :
    (a.bind key ip).assignment = Function.update a.assignment key (some ip) := by
  funext other
  rw [Function.update_apply]
  split
  next h =>
    subst h
    exact Finmap.lookup_insert _
  next h => exact Finmap.lookup_insert_of_ne _ h

theorem assignment_release (a : Allocator) (key : String) :
    (a.release key).assignment = Function.update a.assignment key none := by
  funext other
  rw [Function.update_apply, assignment, assignment, release]
  split
  next ip hHeld =>
    split
    next h =>
      subst h
      exact Finmap.lookup_erase _ _
    next h => exact Finmap.lookup_erase_ne h
  next hNone =>
    split
    next h =>
      subst h
      exact hNone
    next => rfl

theorem lookup_bind (a : Allocator) (key ip other : String) :
    (a.bind key ip).allocated.lookup other =
      if other = key then some ip else a.allocated.lookup other := by
  have h := congrFun (assignment_bind a key ip) other
  rwa [Function.update_apply] at h

theorem lookup_release (a : Allocator) (key other : String) :
    (a.release key).allocated.lookup other =
      if other = key then none else a.allocated.lookup other := by
  have h := congrFun (assignment_release a key) other
  rwa [Function.update_apply] at h

theorem mem_usedIPs_bind (taken : String) :
    ip ∈ (a.bind key taken).usedIPs ↔ ip = taken ∨ ip ∈ a.usedIPs := Finset.mem_insert

theorem held_bind (hNone : a.allocated.lookup key = none) (taken : String) :
    (∃ holder, (a.bind key taken).allocated.lookup holder = some ip) ↔
      ip = taken ∨ ∃ holder, a.allocated.lookup holder = some ip := by
  constructor
  · rintro ⟨holder, hHolder⟩
    rw [lookup_bind] at hHolder
    split at hHolder
    · exact Or.inl (Option.some.inj hHolder).symm
    · exact Or.inr ⟨holder, hHolder⟩
  · rintro (rfl | ⟨holder, hHolder⟩)
    · exact ⟨key, by rw [lookup_bind, if_pos rfl]⟩
    · refine ⟨holder, ?_⟩
      rw [lookup_bind, if_neg, hHolder]
      rintro rfl
      cases hNone.symm.trans hHolder

/-- An address that is used after a release was used before, and its holder keeps it. -/
theorem held_of_used_release (h : ip ∈ (a.release key).usedIPs) :
    ip ∈ a.usedIPs ∧ ∀ holder, a.allocated.lookup holder = some ip →
      (a.release key).allocated.lookup holder = some ip := by
  have hOld : ip ∈ a.usedIPs ∧ a.allocated.lookup key ≠ some ip := by
    rw [release] at h
    split at h
    next held hHeld =>
      obtain ⟨hNe, hUsed⟩ := Finset.mem_erase.mp h
      exact ⟨hUsed, fun hSame => hNe (Option.some.inj (hSame.symm.trans hHeld))⟩
    next hNone => exact ⟨h, by simp [hNone]⟩
  refine ⟨hOld.1, fun holder hHolder => ?_⟩
  rw [lookup_release, if_neg, hHolder]
  rintro rfl
  exact hOld.2 hHolder

/-- An adopted address was free, and the key held none. -/
theorem tryAdopt_cases (h : a.tryAdopt net key ip = some b) :
    (b = a ∧ a.allocated.lookup key = some ip) ∨
      (b = a.bind key ip ∧ a.allocated.lookup key = none ∧ ip ∈ free net a) := by
  rcases Pool.tryAdopt_cases h with hSame | ⟨hBound, hNone, hSubnet, hUnused⟩
  · exact Or.inl hSame
  · exact Or.inr ⟨hBound, hNone, Pool.mem_free.mpr ⟨net.mem_hosts_of_inSubnet hSubnet, hUnused⟩⟩

theorem allocate_cases (net : Subnet) (a : Allocator) (key : String) :
    (∃ ip, a.allocated.lookup key = some ip ∧ a.allocate net key = some (a, ip)) ∨
    (a.allocated.lookup key = none ∧ free net a = ∅ ∧ a.allocate net key = none) ∨
    ∃ ip, a.allocated.lookup key = none ∧ ip ∈ free net a ∧
      a.allocate net key = some (a.bind key ip, ip) := net.toPool.allocate_cases a key

/-- Releasing a key after `allocate` undoes it just if the key held no address before. -/
theorem release_allocate_iff (h : a.allocate net key = some (b, ip)) :
    b.release key = a ↔ a.allocated.lookup key = none := by
  have hReleased : b.release key = a → a.allocated.lookup key = none := by
    intro hSame
    rw [← hSame, lookup_release, if_pos rfl]
  refine ⟨hReleased, fun hNone => ?_⟩
  rcases allocate_cases net a key with ⟨held, hHeld, _⟩ | ⟨_, _, hFull⟩ | ⟨host, _, hFree, hBound⟩
  · rw [hNone] at hHeld
    cases hHeld
  · rw [hFull] at h
    cases h
  · rw [hBound] at h
    cases h
    have hLookup : (a.bind key ip).allocated.lookup key = some ip := by
      rw [lookup_bind, if_pos rfl]
    have hMap : (a.allocated.insert key ip).erase key = a.allocated := by
      apply Finmap.ext_lookup
      intro other
      by_cases hOther : other = key
      · rw [hOther, Finmap.lookup_erase, hNone]
      · rw [Finmap.lookup_erase_ne hOther, Finmap.lookup_insert_of_ne _ hOther]
    rw [release, hLookup]
    dsimp only
    rw [bind, hMap, Finset.erase_insert (Pool.mem_free.mp hFree).2]

/-- `allocate` changes nothing just if the key holds an address. -/
theorem allocate_eq_self_iff (h : a.allocate net key = some (b, ip)) :
    b = a ↔ a.allocated.lookup key = some ip := by
  rcases allocate_cases net a key with ⟨held, hHeld, hSame⟩ | ⟨_, _, hFull⟩ | ⟨host, hNone, _, hBound⟩
  · rw [hSame] at h
    cases h
    exact iff_of_true rfl hHeld
  · rw [hFull] at h
    cases h
  · rw [hBound] at h
    cases h
    refine iff_of_false (fun hEq => ?_) (by rw [hNone]; simp)
    have hLookup := lookup_bind a key ip key
    rw [hEq, hNone, if_pos rfl] at hLookup
    cases hLookup

/-- Every address that is given is marked as used, and none is given twice. -/
structure Separate (a : Allocator) : Prop where
  used : ∀ key ip, a.allocated.lookup key = some ip → ip ∈ a.usedIPs
  injective : Assignment.Injective a.assignment

/-- The assignment is one of hosts, and every host that is given is marked as used. -/
structure Sound (net : Subnet) (a : Allocator) : Prop where
  host : ∀ key ip, a.allocated.lookup key = some ip → ip ∈ net.hosts
  used : ∀ key ip, a.allocated.lookup key = some ip → ip ∈ a.usedIPs
  injective : Assignment.Injective a.assignment

theorem separate_fresh (p : Pool) : p.fresh.Separate where
  used key ip h := by simp [Pool.fresh] at h
  injective key other ip h := by simp [Pool.fresh, assignment] at h

theorem Separate.bind (h : a.Separate) (hUnused : ip ∉ a.usedIPs) (key : String) :
    (a.bind key ip).Separate where
  used other held hOther := by
    rw [lookup_bind] at hOther
    split at hOther
    · cases hOther
      exact Finset.mem_insert_self _ _
    · exact Finset.mem_insert_of_mem (h.used other held hOther)
  injective := by
    rw [assignment_bind]
    exact h.injective.assign (fun other hOther => hUnused (h.used other ip hOther)) key

theorem Separate.release (h : a.Separate) (key : String) : (a.release key).Separate where
  used other ip hOther := by
    have hLeft := hOther
    rw [lookup_release] at hLeft
    split at hLeft
    · cases hLeft
    next hNe =>
      have hUsed := h.used other ip hLeft
      unfold Allocator.release
      split
      next held hHeld =>
        -- The released address was that of another key.
        refine Finset.mem_erase.mpr ⟨?_, hUsed⟩
        rintro rfl
        exact hNe (h.injective other key ip hLeft hHeld)
      next => exact hUsed
  injective := by
    rw [assignment_release]
    exact h.injective.unassign key

/-- There are as many addresses as keys. -/
theorem Separate.card_image (h : a.Separate) :
    (a.allocated.keys.image a.lookup).card = a.allocated.keys.card := by
  refine Finset.card_image_of_injOn fun key hKey other hOther hSame => ?_
  obtain ⟨ip, hIP⟩ := Finmap.mem_iff.mp (Finmap.mem_keys.mp hKey)
  obtain ⟨ip', hIP'⟩ := Finmap.mem_iff.mp (Finmap.mem_keys.mp hOther)
  simp only [Allocator.lookup, hIP, hIP', Option.getD_some] at hSame
  exact h.injective key other ip hIP (hSame ▸ hIP')

theorem sound_new (net : Subnet) : (new net).Sound net where
  host key ip h := by simp [Pool.fresh] at h
  used := (separate_fresh net.toPool).used
  injective := (separate_fresh net.toPool).injective

theorem Sound.separate (h : a.Sound net) : a.Separate := ⟨h.used, h.injective⟩

theorem Sound.bind (h : a.Sound net) (hFree : ip ∈ free net a) (key : String) :
    (a.bind key ip).Sound net := by
  obtain ⟨hUsed, hInjective⟩ := h.separate.bind (Pool.mem_free.mp hFree).2 key
  refine ⟨fun other held hOther => ?_, hUsed, hInjective⟩
  rw [lookup_bind] at hOther
  split at hOther
  · cases hOther
    exact (Pool.mem_free.mp hFree).1
  · exact h.host other held hOther

theorem Sound.release (h : a.Sound net) (key : String) : (a.release key).Sound net := by
  obtain ⟨hUsed, hInjective⟩ := h.separate.release key
  refine ⟨fun other ip hOther => ?_, hUsed, hInjective⟩
  rw [lookup_release] at hOther
  split at hOther
  · cases hOther
  · exact h.host other ip hOther

theorem Sound.ne_empty (h : a.Sound net) (hHeld : a.allocated.lookup key = some ip) : ip ≠ "" :=
  net.ne_empty_of_mem_hosts (h.host key ip hHeld)

/-- What an allocation does: the key has the address, and no other key is touched. -/
theorem Sound.allocate (h : a.Sound net) (hAllocate : a.allocate net key = some (b, ip)) :
    b.Sound net ∧ b.assignment = Function.update a.assignment key (some ip) ∧
      ∀ other held, a.allocated.lookup other = some held → b.allocated.lookup other = some held := by
  rcases allocate_cases net a key with
    ⟨held, hHeld, hEq⟩ | ⟨_, _, hEq⟩ | ⟨taken, hNone, hFree, hEq⟩ <;> rw [hEq] at hAllocate <;>
    cases hAllocate
  · refine ⟨h, ?_, fun _ _ hOther => hOther⟩
    rw [← show a.assignment key = some ip from hHeld, Function.update_eq_self]
  · refine ⟨h.bind hFree key, assignment_bind a key ip, fun other held hOther => ?_⟩
    have hNe : other ≠ key := by
      rintro rfl
      rw [hOther] at hNone
      cases hNone
    rw [lookup_bind, if_neg hNe, hOther]

/-- Every used address that is not reserved belongs to a key. -/
def Accounted (net : Subnet) (a : Allocator) : Prop :=
  ∀ ip ∈ a.usedIPs, ip ∉ net.reserved → ∃ key, a.allocated.lookup key = some ip

theorem Accounted.bind (h : a.Accounted net) (hNone : a.allocated.lookup key = none) (ip : String) :
    (a.bind key ip).Accounted net := by
  intro other hOther hReserved
  rw [held_bind hNone]
  exact ((mem_usedIPs_bind ip).mp hOther).imp_right fun hOld => h other hOld hReserved

theorem accounted_new (net : Subnet) : (new net).Accounted net :=
  fun _ hUsed hNot => absurd hUsed hNot

/-- Only the holder of an address gives it back. -/
theorem Accounted.release (h : a.Accounted net) (key : String) :
    (a.release key).Accounted net := by
  intro ip hUsed hReserved
  obtain ⟨hOld, hKept⟩ := held_of_used_release hUsed
  obtain ⟨holder, hHolder⟩ := h ip hOld hReserved
  exact ⟨holder, hKept holder hHolder⟩

/-- What happens to an allocator: a key without an address takes a free host, or a key gives
its address back. -/
inductive Change (net : Subnet) (a : Allocator) : Allocator → Prop where
  | bind (key ip : String) (hNone : a.allocated.lookup key = none) (hFree : ip ∈ free net a) :
      Change net a (a.bind key ip)
  | release (key : String) : Change net a (a.release key)

def Evolves (net : Subnet) : Allocator → Allocator → Prop := Relation.ReflTransGen (Change net)

theorem evolves_allocate (h : a.allocate net key = some (b, ip)) : Evolves net a b := by
  rcases allocate_cases net a key with
    ⟨held, _, hEq⟩ | ⟨_, _, hEq⟩ | ⟨taken, hNone, hFree, hEq⟩ <;> rw [hEq] at h <;> cases h
  · exact .refl
  · exact .single (.bind key ip hNone hFree)

theorem Evolves.release (h : Evolves net a b) (key : String) :
    Evolves net a (b.release key) := h.tail (.release key)

theorem Evolves.sound (h : Evolves net a b) (hSound : a.Sound net) : b.Sound net := by
  induction h with
  | refl => exact hSound
  | tail _ hLast ih =>
      cases hLast with
      | bind key ip hNone hFree => exact ih.bind hFree key
      | release key => exact ih.release key

theorem Evolves.accounted (h : Evolves net a b) (hAccounted : a.Accounted net) :
    b.Accounted net := by
  induction h with
  | refl => exact hAccounted
  | tail _ hLast ih =>
      cases hLast with
      | bind key ip hNone hFree => exact ih.bind hNone ip
      | release key => exact ih.release key

/-- The hosts in use are those of the keys. -/
theorem image_lookup_keys (hSound : a.Sound net) (hAccounted : a.Accounted net) :
    a.allocated.keys.image a.lookup = net.hosts.toFinset ∩ a.usedIPs := by
  ext ip
  simp only [Finset.mem_image, Finset.mem_inter, List.mem_toFinset, Finmap.mem_keys, Finmap.mem_iff,
    Allocator.lookup]
  constructor
  · rintro ⟨key, ⟨held, hHeld⟩, rfl⟩
    rw [hHeld, Option.getD_some]
    exact ⟨hSound.host key held hHeld, hSound.used key held hHeld⟩
  · rintro ⟨hHost, hUsed⟩
    obtain ⟨key, hKey⟩ := hAccounted ip hUsed (net.notMem_reserved hHost)
    exact ⟨key, ⟨ip, hKey⟩, by rw [hKey, Option.getD_some]⟩

/-- Every host is free or belongs to a key. -/
theorem card_free_add_card_keys (hSound : a.Sound net) (hAccounted : a.Accounted net) :
    (free net a).card + a.allocated.keys.card = 253 := by
  rw [← hSound.separate.card_image, image_lookup_keys hSound hAccounted, free, Pool.free, Finset.card_sdiff_add_card_inter, net.card_hosts]

end Allocator

namespace Server

/-- A peer that is added has a valid key. -/
theorem addPeer_eq_ok {srv : Server} {exec : List String → Bool} {peers after : Peers}
    {key ip : String} (h : srv.addPeer exec peers key ip = .ok after) :
    validateWGPublicKey key = true ∧ after = peers.insert key ⟨key, ip, srv.tunnelIPv6 ip⟩ := by
  unfold addPeer at h
  split at h
  · cases h
  next hKey =>
    split at h
    · cases h
    · split at h
      · cases h
      · cases h
        exact ⟨by simpa using hKey, rfl⟩

/-- With a valid key and an address of the overlay only the command can fail. -/
theorem addPeer_of_valid {srv : Server} {exec : List String → Bool}
    (hExec : ∀ command, exec command = true) (peers : Peers) {key ip : String}
    (hKey : validateWGPublicKey key = true) (hIP : validateTunnelIPv4 ip = true) :
    srv.addPeer exec peers key ip = .ok (peers.insert key ⟨key, ip, srv.tunnelIPv6 ip⟩) := by
  simp [addPeer, hKey, hIP, hExec]

end Server

end WireGuard
