import Mathlib.Data.List.AList

/-! Partial assignments of values to keys, and those that give no value to two keys. They
are what an allocator keeps: giving a key a value that nobody has, and taking a value
back, leave the values apart. The same for finite maps, which may lose several keys at once. -/
namespace Assignment

variable {α β : Type} {f : α → Option β}

/-- No two keys have the same value. -/
def Injective (f : α → Option β) : Prop := ∀ a b x, f a = some x → f b = some x → a = b

/-- Nobody has the value. -/
def Unused (f : α → Option β) (x : β) : Prop := ∀ a, f a ≠ some x

variable [DecidableEq α]

theorem Injective.assign (h : Injective f) {x : β} (hUnused : Unused f x) (a : α) :
    Injective (Function.update f a (some x)) := by
  intro b c y hb hc
  rw [Function.update_apply] at hb hc
  split at hb <;> split at hc
  next hba hca => exact hba.trans hca.symm
  next =>
    cases hb
    exact absurd hc (hUnused c)
  next =>
    cases hc
    exact absurd hb (hUnused b)
  next => exact h b c y hb hc

theorem Injective.unassign (h : Injective f) (a : α) : Injective (Function.update f a none) := by
  intro b c y hb hc
  rw [Function.update_apply] at hb hc
  split at hb
  · cases hb
  · split at hc
    · cases hc
    · exact h b c y hb hc

end Assignment

namespace Table

variable {α β : Type} [DecidableEq α]

theorem lookup_foldl_erase (keys : List α) (m : AList fun _ : α => β) (key : α) :
    (keys.foldl (fun m k => m.erase k) m).lookup key = if key ∈ keys then none else m.lookup key := by
  induction keys generalizing m with
  | nil => rfl
  | cons first keys ih =>
      rw [List.foldl_cons, ih]
      by_cases hMem : key ∈ keys
      · simp [hMem]
      · by_cases hKey : key = first
        · subst hKey
          simp
        · simp [hMem, hKey, AList.lookup_erase_ne]

/-- The map without the keys whose values pass a test. -/
def dropIf (p : β → Bool) (m : AList fun _ : α => β) : AList fun _ : α => β :=
  ((m.entries.filter fun e => p e.2).map (·.1)).foldl (fun m k => m.erase k) m

theorem lookup_dropIf (p : β → Bool) (m : AList fun _ : α => β) (key : α) :
    (dropIf p m).lookup key = (m.lookup key).filter fun b => !p b := by
  have hDropped : key ∈ (m.entries.filter fun e => p e.2).map (·.1) ↔
      ∃ b, m.lookup key = some b ∧ p b = true := by
    rw [List.mem_map]
    constructor
    · rintro ⟨⟨_, b⟩, hEntry, rfl⟩
      obtain ⟨hMem, hTest⟩ := List.mem_filter.mp hEntry
      exact ⟨b, AList.mem_lookup_iff.mpr hMem, hTest⟩
    · rintro ⟨b, hLookup, hTest⟩
      exact ⟨⟨key, b⟩, List.mem_filter.mpr ⟨AList.mem_lookup_iff.mp hLookup, hTest⟩, rfl⟩
  rw [dropIf, lookup_foldl_erase]
  simp only [hDropped]
  cases m.lookup key with
  | none => simp
  | some b => cases hTest : p b <;> simp [Option.filter, hTest]

theorem length_foldl_erase_le (keys : List α) (m : AList fun _ : α => β) :
    (keys.foldl (fun m k => m.erase k) m).keys.length ≤ m.keys.length := by
  induction keys generalizing m with
  | nil => exact Nat.le_refl _
  | cons first keys ih =>
      refine Nat.le_trans (ih _) ?_
      rw [AList.keys_erase]
      exact List.length_erase_le

theorem length_insert_of_lookup_eq_none {m : AList fun _ : α => β} {key : α}
    (h : m.lookup key = none) (b : β) : (m.insert key b).keys.length = m.keys.length + 1 := by
  have hMem : key ∉ m.keys := AList.lookup_eq_none.mp h
  rw [AList.keys_insert, List.length_cons, List.erase_of_not_mem hMem]

/-- Each value belongs to one key. -/
def Injective (m : AList fun _ : α => β) : Prop :=
  ∀ a b x, m.lookup a = some x → m.lookup b = some x → a = b

/-- The entries that pass a test: their values differ, and what is left when they are
erased are the other values. -/
theorem Injective.erase_filter {m : AList fun _ : α => β} (h : Injective m)
    (p : (Sigma fun _ : α => β) → Bool) :
    ((m.entries.filter p).map (·.2)).Nodup ∧
    (∀ x ∈ (m.entries.filter p).map (·.2), ∃ a, m.lookup a = some x) ∧
    ∀ a x, ((m.entries.filter p).foldl (fun m e => m.erase e.1) m).lookup a = some x ↔
      m.lookup a = some x ∧ x ∉ (m.entries.filter p).map (·.2) := by
  have hEntry : ∀ e : Sigma fun _ : α => β, e ∈ m.entries ↔ m.lookup e.1 = some e.2 :=
    fun e => AList.mem_lookup_iff.symm
  refine ⟨?_, ?_, ?_⟩
  · refine List.Nodup.map_on ?_ (m.nodupKeys.nodup.filter p)
    intro e he f hf hValue
    have hE := (hEntry e).mp (List.mem_of_mem_filter he)
    have hF := (hEntry f).mp (List.mem_of_mem_filter hf)
    have hKey := h e.1 f.1 e.2 hE (hValue ▸ hF)
    exact Sigma.ext hKey (heq_of_eq hValue)
  · intro x hx
    obtain ⟨e, he, rfl⟩ := List.mem_map.mp hx
    exact ⟨e.1, (hEntry e).mp (List.mem_of_mem_filter he)⟩
  · intro a x
    have hFold : (m.entries.filter p).foldl (fun m e => m.erase e.1) m =
        ((m.entries.filter p).map (·.1)).foldl (fun m k => m.erase k) m := by
      rw [List.foldl_map]
    rw [hFold, lookup_foldl_erase]
    constructor
    · intro hLookup
      split_ifs at hLookup with hMem
      refine ⟨hLookup, fun hValue => hMem ?_⟩
      obtain ⟨e, he, rfl⟩ := List.mem_map.mp hValue
      have hE := (hEntry e).mp (List.mem_of_mem_filter he)
      exact List.mem_map.mpr ⟨e, he, h e.1 a e.2 hE hLookup⟩
    · rintro ⟨hLookup, hValue⟩
      rw [if_neg, hLookup]
      intro hMem
      obtain ⟨e, he, rfl⟩ := List.mem_map.mp hMem
      have hE := (hEntry e).mp (List.mem_of_mem_filter he)
      obtain rfl := Option.some.inj (hE.symm.trans hLookup)
      exact hValue (List.mem_map.mpr ⟨e, he, rfl⟩)

end Table
