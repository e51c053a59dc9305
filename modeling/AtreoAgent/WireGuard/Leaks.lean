import AtreoAgent.WireGuard.Pool

/-! Whether the allocator loses addresses. An address is lost when it stays marked although
no key holds it. Only `MarkUsed` loses one: without a key there is nobody to give the address
back, and a key that holds another address leaves that one behind. -/
namespace WireGuard

open Codec Atreolink Net Acl Machine

namespace Pool

/-- The allocator as it is created: fresh, or with the entries of its state file. -/
def started (p : Pool) (walk : Walk) : Option (StringMap String) → Allocator
  | none => p.fresh
  | some m => p.load p.fresh (walk.order m)

/-- The marked addresses are those that are reserved or held. -/
def LeakFree (p : Pool) (a : Allocator) : Prop :=
  ∀ ip, ip ∈ a.usedIPs ↔ ip ∈ p.reserved ∨ ∃ key, a.allocated.lookup key = some ip

/-- An address that is marked goes to a key that holds none. -/
def Clean (p : Pool) (a : Allocator) : Op → Prop
  | .markUsed key ip =>
      p.inSubnet ip = true → ip ∉ a.usedIPs → key ≠ "" ∧ a.allocated.lookup key = none
  | _ => True

section Kept

variable {p : Pool} {a : Allocator} {key : String}

theorem leakFree_fresh (p : Pool) : p.LeakFree p.fresh := by
  intro ip
  simp [fresh]

theorem LeakFree.bind (h : p.LeakFree a) (hNone : a.allocated.lookup key = none) (ip : String) :
    p.LeakFree (a.bind key ip) := by
  intro other
  rw [Allocator.held_bind hNone, Allocator.mem_usedIPs_bind, h other]
  exact or_left_comm

theorem LeakFree.release (h : p.LeakFree a) (hSafe : p.Safe a) (key : String) :
    p.LeakFree (a.release key) := by
  intro ip
  constructor
  · intro hUsed
    obtain ⟨hOld, hKept⟩ := Allocator.held_of_used_release hUsed
    rcases (h ip).mp hOld with hReserved | ⟨holder, hHolder⟩
    · exact Or.inl hReserved
    · exact Or.inr ⟨holder, hKept holder hHolder⟩
  · rintro (hReserved | ⟨holder, hHolder⟩)
    · exact (hSafe.release key).kept hReserved
    · exact (hSafe.release key).separate.used holder ip hHolder

/-- Loading into an allocator without the keys of the file. -/
theorem LeakFree.load {entries : List (String × String)} (h : p.LeakFree a)
    (hDistinct : (entries.map (·.1)).Nodup) (hNew : ∀ e ∈ entries, a.allocated.lookup e.1 = none) :
    p.LeakFree (p.load a entries) := by
  induction entries generalizing a with
  | nil => exact h
  | cons e entries ih =>
      obtain ⟨hFirst, hRest⟩ := List.nodup_cons.mp hDistinct
      have hLater : ∀ f ∈ entries, a.allocated.lookup f.1 = none := fun f hf =>
        hNew f (List.mem_cons_of_mem e hf)
      rw [Pool.load, List.foldl_cons]
      rcases loadEntry_cases p a e with ⟨_, _, hBound⟩ | ⟨_, hSame⟩
      · rw [hBound]
        refine ih (h.bind (hNew e List.mem_cons_self) e.2) hRest fun f hf => ?_
        rw [Allocator.lookup_bind, if_neg, hLater f hf]
        intro hKey
        exact hFirst (List.mem_map.mpr ⟨f, hf, hKey⟩)
      · rw [hSame]
        exact ih h hRest hLater

theorem leakFree_started (p : Pool) (walk : Walk) (file : Option (StringMap String)) :
    p.LeakFree (p.started walk file) := by
  cases file with
  | none => exact leakFree_fresh p
  | some m => exact (leakFree_fresh p).load (walk.distinct m) fun e _ => by simp [fresh]

theorem safe_started (p : Pool) (walk : Walk) (file : Option (StringMap String)) :
    p.Safe (p.started walk file) := by
  cases file with
  | none => exact safe_fresh p
  | some m => exact (safe_fresh p).changes (load_changes p p.fresh _)

/-- A clean step loses nothing. -/
theorem LeakFree.op (h : p.LeakFree a) (hSafe : p.Safe a) {op : Op} (hClean : p.Clean a op) :
    p.LeakFree (op.apply p a) := by
  cases op with
  | allocate key =>
      rw [Op.apply]
      rcases allocate_cases p a key with ⟨ip, _, hSame⟩ | ⟨_, _, hFull⟩ | ⟨ip, hNone, _, hBound⟩
      · rw [hSame]
        exact h
      · rw [hFull]
        exact h
      · rw [hBound]
        exact h.bind hNone ip
  | tryAdopt key ip =>
      rw [Op.apply]
      cases hAdopt : p.tryAdopt a key ip with
      | none => exact h
      | some b =>
          rcases tryAdopt_cases hAdopt with ⟨rfl, _⟩ | ⟨rfl, hNone, _, _⟩
          · exact h
          · exact h.bind hNone ip
  | markUsed key ip =>
      rw [Op.apply]
      by_cases hFree : p.inSubnet ip = true ∧ ip ∉ a.usedIPs
      · obtain ⟨hKey, hNone⟩ := hClean hFree.1 hFree.2
        rw [markUsed_of_free hFree.1 hFree.2, if_neg hKey]
        exact h.bind hNone ip
      · rw [markUsed_of_not_free hFree]
        exact h
  | release key => exact h.release hSafe key

/-- A step that is not clean loses an address. -/
theorem clean_of_leakFree (hSafe : p.Safe a) {op : Op} (h : p.LeakFree (op.apply p a)) :
    p.Clean a op := by
  cases op with
  | allocate key => trivial
  | tryAdopt key ip => trivial
  | release key => trivial
  | markUsed key ip =>
      intro hSubnet hUnused
      rw [Op.apply, markUsed_of_free hSubnet hUnused] at h
      by_cases hKey : key = ""
      · -- The address is marked and nobody holds it.
        rw [if_pos hKey] at h
        rcases (h ip).mp (Finset.mem_insert_self _ _) with hReserved | ⟨holder, hHolder⟩
        · exact absurd hReserved (notMem_reserved_of_inSubnet hSubnet)
        · exact absurd (hSafe.separate.used holder ip hHolder) hUnused
      · refine ⟨hKey, ?_⟩
        rw [if_neg hKey] at h
        cases hHeld : a.allocated.lookup key with
        | none => rfl
        | some old =>
            -- The key had another address, which stays marked.
            have hOldUsed := hSafe.separate.used key old hHeld
            have hStays : old ∈ (a.bind key ip).usedIPs := Finset.mem_insert_of_mem hOldUsed
            rcases (h old).mp hStays with hReserved | ⟨holder, hHolder⟩
            · exact absurd hReserved (hSafe.allowed key old hHeld)
            · rw [Allocator.lookup_bind] at hHolder
              split at hHolder
              · cases hHolder
                exact absurd hOldUsed hUnused
              next hNe => exact absurd (hSafe.separate.injective holder key old hHolder hHeld) hNe

/-- A full pool has a key for each host. -/
theorem LeakFree.card_keys (h : p.LeakFree a) (hSafe : p.Safe a) (hServer : p.serverIP = p.host 1)
    (hHosts : ∀ key ip, a.allocated.lookup key = some ip → ip ∈ p.hosts)
    (hNone : a.allocated.lookup key = none) (hFull : p.allocate a key = none) :
    a.allocated.keys.card = 253 := by
  have hUsed : ∀ ip ∈ p.hosts, ip ∈ a.usedIPs := by
    rcases allocate_cases p a key with ⟨ip, hHeld, _⟩ | ⟨_, hTaken, _⟩ | ⟨_, _, _, hBound⟩
    · cases hNone.symm.trans hHeld
    · exact hosts_used hTaken
    · cases hFull.symm.trans hBound
  have hImage : a.allocated.keys.image a.lookup = p.hosts.toFinset := by
    ext ip
    simp only [Finset.mem_image, List.mem_toFinset, Finmap.mem_keys, Finmap.mem_iff, Allocator.lookup]
    constructor
    · rintro ⟨k, ⟨held, hHeld⟩, rfl⟩
      rw [hHeld, Option.getD_some]
      exact hHosts k held hHeld
    · intro hHost
      rcases (h ip).mp (hUsed ip hHost) with hReserved | ⟨k, hk⟩
      · exact absurd hReserved (p.notMem_reserved hServer hHost)
      · exact ⟨k, ⟨ip, hk⟩, by rw [hk, Option.getD_some]⟩
  rw [← card_hosts p, ← hImage, hSafe.separate.card_image]

theorem lookup_foldl_release (keys : List String) (a : Allocator) (key : String) :
    (keys.foldl Allocator.release a).allocated.lookup key =
      if key ∈ keys then none else a.allocated.lookup key := by
  induction keys generalizing a with
  | nil => rfl
  | cons first keys ih =>
      rw [List.foldl_cons, ih, Allocator.lookup_release]
      by_cases hMem : key ∈ keys
      · simp [hMem]
      · by_cases hFirst : key = first
        · simp [hFirst]
        · simp [hMem, hFirst]

/-- Once every key has given its address back, every host is free. -/
theorem LeakFree.card_free (h : p.LeakFree a) (hSafe : p.Safe a) (hServer : p.serverIP = p.host 1)
    {keys : List String} (hAll : ∀ key ip, a.allocated.lookup key = some ip → key ∈ keys) :
    (p.free (keys.foldl Allocator.release a)).card = 253 := by
  have hKept : p.LeakFree (keys.foldl Allocator.release a) := by
    clear hAll
    induction keys generalizing a with
    | nil => exact h
    | cons key keys ih => exact ih (h.release hSafe key) (hSafe.release key)
  have hUnused : ∀ ip ∈ p.hosts, ip ∉ (keys.foldl Allocator.release a).usedIPs := by
    intro ip hHost hUsed
    rcases (hKept ip).mp hUsed with hReserved | ⟨key, hKey⟩
    · exact p.notMem_reserved hServer hHost hReserved
    · rw [lookup_foldl_release] at hKey
      split at hKey
      · cases hKey
      next hMem => exact hMem (hAll key ip hKey)
  have hFree : p.free (keys.foldl Allocator.release a) = p.hosts.toFinset := by
    rw [free, Finset.sdiff_eq_self_iff_disjoint, Finset.disjoint_left]
    intro ip hHost
    exact hUnused ip (List.mem_toFinset.mp hHost)
  rw [hFree, card_hosts]

end Kept

/-- No address is lost: what is marked is reserved or held, `Allocate` fails for a new key
only when 253 keys hold the hosts, and with all keys released the 253 hosts are free. -/
structure NoLeak (p : Pool) (a : Allocator) : Prop where
  marked : p.LeakFree a
  full : p.serverIP = p.host 1 →
    (∀ key ip, a.allocated.lookup key = some ip → ip ∈ p.hosts) →
    ∀ key, a.allocated.lookup key = none → p.allocate a key = none → a.allocated.keys.card = 253
  returned : p.serverIP = p.host 1 →
    ∀ keys : List String, (∀ key ip, a.allocated.lookup key = some ip → key ∈ keys) →
      (p.free (keys.foldl Allocator.release a)).card = 253

/-- The allocator never loses an address just if `MarkUsed` gives each address that it marks
to a key that holds none. -/
theorem no_leak_iff (p : Pool) (walk : Walk) (file : Option (StringMap String)) (ops : List Op) :
    (∀ n, p.NoLeak (run (Op.apply p) (p.started walk file) (ops.take n))) ↔
      Meets (Op.apply p) p.Clean (p.started walk file) ops := by
  have hSafe : ∀ n, p.Safe (run (Op.apply p) (p.started walk file) (ops.take n)) := fun n =>
    invariant_always p.Safe (fun a op h => h.op op) (safe_started p walk file) _
  constructor
  · intro h
    refine meets_of_getElem fun n op hOp => clean_of_leakFree (hSafe n) ?_
    have hNext := (h (n + 1)).marked
    rwa [run_take_succ hOp] at hNext
  · intro h n
    have hKept : p.Safe (run (Op.apply p) (p.started walk file) (ops.take n)) ∧
        p.LeakFree (run (Op.apply p) (p.started walk file) (ops.take n)) :=
      invariant_run (fun a => p.Safe a ∧ p.LeakFree a)
        (fun a op hInv hClean => ⟨hInv.1.op op, hInv.2.op hInv.1 hClean⟩)
        ⟨safe_started p walk file, leakFree_started p walk file⟩ (h.take n)
    refine ⟨hKept.2, ?_, ?_⟩
    · intro hServer hHosts key hNone hFull
      exact hKept.2.card_keys hKept.1 hServer hHosts hNone hFull
    · intro hServer keys hAll
      exact hKept.2.card_free hKept.1 hServer hAll

/-- The overlay of the old installations. -/
def legacy : Pool := ⟨"100.64.0", "100.64.0.1"⟩

/-- A key is moved to another address and released. -/
def movedOps : List Op :=
  [.markUsed "k" "100.64.0.5", .markUsed "k" "100.64.0.6", .release "k"]

theorem run_movedOps :
    run (Op.apply legacy) (legacy.started Walk.sorted none) movedOps =
      ((legacy.fresh.bind "k" "100.64.0.5").bind "k" "100.64.0.6").release "k" := by
  have hFirst : legacy.markUsed legacy.fresh "k" "100.64.0.5" =
      legacy.fresh.bind "k" "100.64.0.5" := by
    rw [markUsed_of_free (by decide +kernel) (by decide +kernel), if_neg (by decide)]
  have hSecond : legacy.markUsed (legacy.fresh.bind "k" "100.64.0.5") "k" "100.64.0.6" =
      (legacy.fresh.bind "k" "100.64.0.5").bind "k" "100.64.0.6" := by
    rw [markUsed_of_free (by decide +kernel) (by decide +kernel), if_neg (by decide)]
  simp only [movedOps, started, run_cons, run_nil, Op.apply, hFirst, hSecond]

/-- The first address of the key stays marked and belongs to nobody. -/
theorem moved_key_leaks :
    "100.64.0.5" ∈ (run (Op.apply legacy) (legacy.started Walk.sorted none) movedOps).usedIPs ∧
    "100.64.0.5" ∉ legacy.reserved ∧
    ∀ key, (run (Op.apply legacy) (legacy.started Walk.sorted none) movedOps).allocated.lookup key ≠
      some "100.64.0.5" := by
  rw [run_movedOps]
  refine ⟨by decide +kernel, by decide +kernel, fun key => ?_⟩
  rw [Allocator.lookup_release]
  split
  · simp
  next hKey =>
    rw [Allocator.lookup_bind, if_neg hKey, Allocator.lookup_bind, if_neg hKey]
    simp [fresh]

end Pool

end WireGuard
