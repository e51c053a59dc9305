import AtreoAgent.Acl.Store
import AtreoAgent.Machine.Run
import AtreoAgent.WireGuard.Snapshot
import Mathlib.Data.Finset.Sort
import Mathlib.Data.String.Basic

/-! The allocator on its own, for any subnet text and any server address, with its state
file. Between its calls anything may happen to the file. No sequence of calls gives one
address to two keys, or one that is reserved to any. -/
namespace WireGuard

open Codec Atreolink Net Acl Machine

/-- `subnetPrefix`: the first three parts of the text in front of the slash. -/
def subnetPrefix (subnet : String) : Except String String :=
  match subnet.toList.splitOn '/' with
  | [ip, _] =>
      match ip.splitOn '.' with
      | [a, b, c, _] => .ok (String.ofList (['.'].intercalate [a, b, c]))
      | _ => .error ("invalid subnet IP: " ++ String.ofList ip)
  | _ => .error ("invalid subnet: " ++ subnet)

namespace Pool

/-- An order in which the entries of a map are walked. -/
structure Walk where
  order : StringMap String → List (String × String)
  distinct : ∀ m, ((order m).map (·.1)).Nodup
  entries : ∀ m key ip, (key, ip) ∈ order m ↔ m.lookup key = some ip

/-- The walk by increasing key. -/
def Walk.sorted : Walk where
  order m := m.keys.sort.map fun key => (key, (m.lookup key).getD "")
  distinct m := by
    have hKeys : (m.keys.sort.map fun key => (key, (m.lookup key).getD "")).map (·.1) =
        m.keys.sort := by
      rw [List.map_map]
      exact List.map_id _
    rw [hKeys]
    exact Finset.sort_nodup _ _
  entries m key ip := by
    simp only [List.mem_map, Finset.mem_sort, Finmap.mem_keys, Finmap.mem_iff, Prod.mk.injEq]
    constructor
    · rintro ⟨_, ⟨held, hHeld⟩, rfl, rfl⟩
      rw [hHeld, Option.getD_some]
    · intro hHeld
      exact ⟨key, ⟨ip, hHeld⟩, rfl, by rw [hHeld, Option.getD_some]⟩

/-- The calls that clients and members cause. -/
inductive Op
  | allocate (key : String)
  | tryAdopt (key ip : String)
  | markUsed (key ip : String)
  | release (key : String)
  deriving DecidableEq, Repr

def Op.apply (p : Pool) (a : Allocator) : Op → Allocator
  | .allocate key => ((p.allocate a key).map (·.1)).getD a
  | .tryAdopt key ip => (p.tryAdopt a key ip).getD a
  | .markUsed key ip => p.markUsed a key ip
  | .release key => a.release key

/-- An allocator and its state file. -/
structure Stored where
  allocator : Allocator
  file : File (StringMap String)

inductive Call
  | made (op : Op)
  /-- `Save`, and whether the file could be written. -/
  | save (written : Bool)
  /-- `Load`, with the order in which the entries come. -/
  | load (walk : Walk)
  /-- The file is changed by someone else. -/
  | replaced (file : File (StringMap String))

def Call.apply (p : Pool) (s : Stored) : Call → Stored
  | .made op => { s with allocator := op.apply p s.allocator }
  | .save written => if written then { s with file := .parsed s.allocator.allocated } else s
  | .load walk =>
      match s.file with
      | .parsed m => { s with allocator := p.load s.allocator (walk.order m) }
      | .missing => s
      | .invalid => s
  | .replaced file => { s with file := file }

inductive SetupError
  | subnet (text : String)
  /-- The state file is there and cannot be read. -/
  | state
  deriving DecidableEq, Repr

/-- `NewIPAllocator`. -/
def newIPAllocator (subnet serverIP : String) (file : File (StringMap String)) (walk : Walk) :
    Except SetupError (Pool × Stored) :=
  match WireGuard.subnetPrefix subnet with
  | .error text => .error (.subnet text)
  | .ok start =>
      let p : Pool := ⟨start, serverIP⟩
      match file with
      | .invalid => .error .state
      | .missing => .ok (p, ⟨p.fresh, file⟩)
      | .parsed m => .ok (p, ⟨p.load p.fresh (walk.order m), file⟩)

theorem pool_of_new {subnet serverIP : String} {file : File (StringMap String)} {walk : Walk}
    {p : Pool} {s : Stored} (h : newIPAllocator subnet serverIP file walk = .ok (p, s)) :
    ∃ start, WireGuard.subnetPrefix subnet = .ok start ∧ p = ⟨start, serverIP⟩ := by
  rw [newIPAllocator] at h
  split at h
  · cases h
  next start hStart =>
    refine ⟨start, hStart, ?_⟩
    dsimp only at h
    split at h <;> cases h <;> rfl

section Steps

variable {p : Pool} {a b : Allocator} {key ip : String}

/-- `MarkUsed` takes effect on a free address of the subnet. -/
theorem markUsed_of_free (hSubnet : p.inSubnet ip = true) (hUnused : ip ∉ a.usedIPs) :
    p.markUsed a key ip =
      if key = "" then { a with usedIPs := insert ip a.usedIPs } else a.bind key ip := by
  simp [markUsed, hSubnet, hUnused]

theorem markUsed_of_not_free (h : ¬(p.inSubnet ip = true ∧ ip ∉ a.usedIPs)) :
    p.markUsed a key ip = a := by
  rw [markUsed, if_pos]
  by_cases hSubnet : p.inSubnet ip = true
  · simpa [hSubnet] using h
  · simp [hSubnet]

/-- What one step does to an allocator: a free address is bound or marked, or a key gives its
address back. -/
inductive Change (a : Allocator) : Allocator → Prop
  | bind (key ip : String) (hUnused : ip ∉ a.usedIPs) : Change a (a.bind key ip)
  | mark (ip : String) (hUnused : ip ∉ a.usedIPs) :
      Change a { a with usedIPs := insert ip a.usedIPs }
  | release (key : String) : Change a (a.release key)

theorem Op.changes (p : Pool) (a : Allocator) (op : Op) :
    Relation.ReflGen Change a (op.apply p a) := by
  cases op with
  | allocate key =>
      rcases allocate_cases p a key with ⟨ip, _, hSame⟩ | ⟨_, _, hFull⟩ | ⟨ip, _, hFree, hBound⟩
      · rw [Op.apply, hSame]
        exact .refl
      · rw [Op.apply, hFull]
        exact .refl
      · rw [Op.apply, hBound]
        exact .single (.bind key ip (mem_free.mp hFree).2)
  | tryAdopt key ip =>
      rw [Op.apply]
      cases hAdopt : p.tryAdopt a key ip with
      | none => exact .refl
      | some b =>
          rcases tryAdopt_cases hAdopt with ⟨rfl, _⟩ | ⟨rfl, _, _, hUnused⟩
          · exact .refl
          · exact .single (.bind key ip hUnused)
  | markUsed key ip =>
      rw [Op.apply]
      by_cases hFree : p.inSubnet ip = true ∧ ip ∉ a.usedIPs
      · rw [markUsed_of_free hFree.1 hFree.2]
        split
        · exact .single (.mark ip hFree.2)
        · exact .single (.bind key ip hFree.2)
      · rw [markUsed_of_not_free hFree]
  | release key => exact .single (.release key)

theorem load_changes (p : Pool) (a : Allocator) (entries : List (String × String)) :
    Relation.ReflTransGen Change a (p.load a entries) := by
  induction entries generalizing a with
  | nil => exact .refl
  | cons e entries ih =>
      rw [load, List.foldl_cons]
      rcases loadEntry_cases p a e with ⟨_, hUnused, hBound⟩ | ⟨_, hSame⟩
      · rw [hBound]
        exact .head (.bind e.1 e.2 hUnused) (ih _)
      · rw [hSame]
        exact ih a

/-- Whatever is called, the allocator takes such steps. -/
theorem Call.changes (p : Pool) (s : Stored) (call : Call) :
    Relation.ReflTransGen Change s.allocator (call.apply p s).allocator := by
  cases call with
  | made op => exact (op.changes p s.allocator).to_reflTransGen
  | save written => cases written <;> exact .refl
  | load walk =>
      rw [Call.apply]
      split
      · exact load_changes p s.allocator _
      · exact .refl
      · exact .refl
  | replaced file => exact .refl

end Steps

/-- Bound addresses are used, apart from each other and not reserved; reserved ones are used. -/
structure Safe (p : Pool) (a : Allocator) : Prop where
  separate : a.Separate
  kept : p.reserved ⊆ a.usedIPs
  allowed : ∀ key ip, a.allocated.lookup key = some ip → ip ∉ p.reserved

section Safety

variable {p : Pool} {a b : Allocator}

theorem safe_fresh (p : Pool) : p.Safe p.fresh where
  separate := Allocator.separate_fresh p
  kept := Finset.Subset.refl _
  allowed key ip h := by simp [fresh] at h

theorem Safe.bind (h : p.Safe a) {ip : String} (hUnused : ip ∉ a.usedIPs) (key : String) :
    p.Safe (a.bind key ip) where
  separate := h.separate.bind hUnused key
  kept := h.kept.trans (Finset.subset_insert _ _)
  allowed other held hHeld := by
    rw [Allocator.lookup_bind] at hHeld
    split at hHeld
    · cases hHeld
      exact fun hReserved => hUnused (h.kept hReserved)
    · exact h.allowed other held hHeld

theorem Safe.mark (h : p.Safe a) (ip : String) :
    p.Safe { a with usedIPs := insert ip a.usedIPs } where
  separate :=
    ⟨fun key held hHeld => Finset.mem_insert_of_mem (h.separate.used key held hHeld),
      h.separate.injective⟩
  kept := h.kept.trans (Finset.subset_insert _ _)
  allowed := h.allowed

/-- What a release unmarks is the address of one key, which is not reserved. -/
theorem Safe.release (h : p.Safe a) (key : String) : p.Safe (a.release key) where
  separate := h.separate.release key
  kept := by
    intro ip hReserved
    rw [Allocator.release]
    split
    next held hHeld =>
      refine Finset.mem_erase.mpr ⟨?_, h.kept hReserved⟩
      rintro rfl
      exact h.allowed key _ hHeld hReserved
    next => exact h.kept hReserved
  allowed other held hHeld := by
    rw [Allocator.lookup_release] at hHeld
    split at hHeld
    · cases hHeld
    · exact h.allowed other held hHeld

theorem Safe.change (h : p.Safe a) (hChange : Change a b) : p.Safe b := by
  cases hChange with
  | bind key ip hUnused => exact h.bind hUnused key
  | mark ip _ => exact h.mark ip
  | release key => exact h.release key

theorem Safe.changes (h : p.Safe a) (hChanges : Relation.ReflTransGen Change a b) : p.Safe b := by
  induction hChanges with
  | refl => exact h
  | tail _ hLast ih => exact ih.change hLast

theorem Safe.op (h : p.Safe a) (op : Op) : p.Safe (op.apply p a) :=
  h.changes (op.changes p a).to_reflTransGen

theorem Safe.run {s : Stored} (h : p.Safe s.allocator) (calls : List Call) :
    p.Safe (Machine.run (Call.apply p) s calls).allocator :=
  invariant_always (fun s => p.Safe s.allocator) (fun s call hSafe => hSafe.changes (call.changes p s))
    h calls

end Safety

/-- After any calls, on a new allocator or on one that has read its file, no address belongs
to two keys, none that is reserved belongs to a key, and those that belong to keys are marked
as used. -/
theorem addresses_never_shared (p : Pool) (file : File (StringMap String)) (calls : List Call) :
    let a := (run (Call.apply p) ⟨p.fresh, file⟩ calls).allocator
    (∀ key other ip, a.allocated.lookup key = some ip → a.allocated.lookup other = some ip →
      key = other) ∧
    ∀ key ip, a.allocated.lookup key = some ip →
      ip ≠ p.serverIP ∧ ip ≠ p.host 0 ∧ ip ≠ p.host 255 ∧ ip ∈ a.usedIPs := by
  intro a
  have hSafe : p.Safe a := (safe_fresh p).run calls
  refine ⟨hSafe.separate.injective, fun key ip hHeld => ?_⟩
  have hAllowed := hSafe.allowed key ip hHeld
  simp only [reserved, Finset.mem_insert, Finset.mem_singleton, not_or] at hAllowed
  exact ⟨hAllowed.1, hAllowed.2.1, hAllowed.2.2, hSafe.separate.used key ip hHeld⟩

end Pool

end WireGuard
