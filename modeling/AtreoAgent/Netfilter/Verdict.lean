import AtreoAgent.Netfilter.Table

/-! What a table does with a packet. The rules of a chain are tried in order; a chain that
is left without a decision returns to the rule that led to it, and a built-in chain falls
back on its policy. The number of nested chains is bounded by a depth; a packet has a
verdict if some depth is enough. -/
namespace Netfilter

/-- How a packet leaves a chain. -/
inductive Outcome where
  | decided (v : Verdict)
  | returned
  deriving DecidableEq, Repr

section Walk

variable {N M P : Type} (holds : M → P → Bool)

/-- Try the rules in order. `sub` tells how a packet leaves the chains they lead to. -/
def walk (sub : N → Option Outcome) (p : P) : List (Rule N M) → Option Outcome
  | [] => some .returned
  | r :: rs =>
      if holds r.cond p then
        match r.target with
        | .accept => some (.decided .accept)
        | .drop => some (.decided .drop)
        | .ret => some .returned
        | .pass => walk sub p rs
        | .goto c => sub c
        | .jump c =>
            match sub c with
            | some .returned => walk sub p rs
            | outcome => outcome
      else walk sub p rs

variable {holds} {sub : N → Option Outcome} {p : P} {r : Rule N M} {rs : List (Rule N M)}

theorem walk_cons_of_not_holds (h : holds r.cond p = false) :
    walk holds sub p (r :: rs) = walk holds sub p rs := by
  rw [walk, h]
  rfl

/-- A rule that the packet does not meet can be deleted. -/
theorem walk_erase [DecidableEq N] [DecidableEq M] (h : holds r.cond p = false) :
    walk holds sub p (rs.erase r) = walk holds sub p rs := by
  induction rs with
  | nil => rfl
  | cons s rs ih =>
      rw [List.erase_cons]
      split
      next hSame =>
        rw [walk_cons_of_not_holds]
        rwa [eq_of_beq hSame]
      next =>
        rw [walk, walk, ih]

/-- Only the chains that the rules lead to matter. -/
theorem walk_congr {sub' : N → Option Outcome}
    (h : ∀ r ∈ rs, ∀ c, r.target.callee = some c → sub c = sub' c) :
    walk holds sub p rs = walk holds sub' p rs := by
  induction rs with
  | nil => rfl
  | cons r rs ih =>
      have hRest := ih fun r' hr' => h r' (List.mem_cons_of_mem r hr')
      have hHead := h r List.mem_cons_self
      rw [walk, walk, hRest]
      cases hTarget : r.target with
      | accept => rfl
      | drop => rfl
      | ret => rfl
      | pass => rfl
      | jump c =>
          rw [hTarget] at hHead
          dsimp only
          rw [hHead c rfl]
      | goto c =>
          rw [hTarget] at hHead
          dsimp only
          rw [hHead c rfl]

/-- Rules that accept, and what comes after them. -/
theorem walk_accepts (rest : List (Rule N M)) (h : ∀ r ∈ rs, r.target = .accept) :
    walk holds sub p (rs ++ rest) =
      if rs.any (holds ·.cond p) then some (.decided .accept) else walk holds sub p rest := by
  induction rs with
  | nil => rfl
  | cons r rs ih =>
      have hRest := ih fun r' hr' => h r' (List.mem_cons_of_mem r hr')
      rw [List.cons_append, walk, h r List.mem_cons_self, hRest, List.any_cons]
      cases holds r.cond p <;> rfl

end Walk

namespace Table

variable {N M P : Type} (holds : M → P → Bool) (t : Table N M)

/-- How a packet leaves a named chain, if the depth is enough. -/
def traverse (p : P) : Nat → N → Option Outcome
  | 0, _ => none
  | depth + 1, c => walk holds (traverse p depth) p (t.rules (.user c))

/-- The verdict of a built-in chain, if the depth is enough. -/
def judge (p : P) (depth : Nat) (hook : Hook) : Option Verdict :=
  (walk holds (t.traverse holds p depth) p (t.rules (.builtin hook))).map fun
    | .decided v => v
    | .returned => t.policy hook

/-- The packet has the verdict. -/
def Gives (hook : Hook) (p : P) (v : Verdict) : Prop := ∃ depth, t.judge holds p depth hook = some v

variable {holds} {t} {t' : Table N M}

/-- A table that has the chains of another, with the same rules, treats packets in them
in the same way. -/
theorem traverse_congr (h : ∀ c ∈ t.names, t'.rules (.user c) = t.rules (.user c)) (p : P)
    (depth : Nat) : ∀ c ∈ t.names, t'.traverse holds p depth c = t.traverse holds p depth c := by
  induction depth with
  | zero => exact fun _ _ => rfl
  | succ depth ih =>
      intro c hc
      rw [traverse, traverse, h c hc]
      exact walk_congr fun r hr d hd => ih d (t.closed _ r hr d hd)

/-- The same for a built-in chain in which the packet meets the same rules. -/
theorem gives_congr {hook : Hook} {p : P}
    (hUser : ∀ c ∈ t.names, t'.rules (.user c) = t.rules (.user c))
    (hHook : ∀ sub, walk holds sub p (t'.rules (.builtin hook)) =
      walk holds sub p (t.rules (.builtin hook)))
    (hPolicy : t'.policy hook = t.policy hook) (v : Verdict) :
    t'.Gives holds hook p v ↔ t.Gives holds hook p v := by
  refine exists_congr fun depth => ?_
  have hSub : walk holds (t'.traverse holds p depth) p (t.rules (.builtin hook)) =
      walk holds (t.traverse holds p depth) p (t.rules (.builtin hook)) :=
    walk_congr fun r hr c hc => traverse_congr hUser p depth c (t.closed _ r hr c hc)
  rw [judge, judge, hHook, hSub, hPolicy]

section Jump

variable {p : P} {cond : M} {c : N} {rest : List (Rule N M)} {v : Verdict}

/-- A jump to a chain that always decides. Without any depth there is no answer. -/
theorem walk_jump (hCond : holds cond p = true)
    (hDecides : ∀ sub, walk holds sub p (t.rules (.user c)) = some (.decided v)) (depth : Nat) :
    walk holds (t.traverse holds p depth) p (⟨cond, .jump c⟩ :: rest) =
      if depth = 0 then none else some (.decided v) := by
  rw [walk, hCond]
  cases depth with
  | zero => rfl
  | succ depth =>
      dsimp only
      rw [if_pos rfl, if_neg depth.succ_ne_zero, traverse, hDecides]

/-- A jump at the top to a chain that always decides. -/
theorem gives_of_jump {hook : Hook} (hTop : t.rules (.builtin hook) = ⟨cond, .jump c⟩ :: rest)
    (hCond : holds cond p = true)
    (hDecides : ∀ sub, walk holds sub p (t.rules (.user c)) = some (.decided v)) (w : Verdict) :
    t.Gives holds hook p w ↔ w = v := by
  simp only [Gives, judge, hTop, walk_jump hCond hDecides]
  constructor
  · rintro ⟨depth, hw⟩
    split at hw
    · cases hw
    · cases hw
      rfl
  · rintro rfl
    exact ⟨1, rfl⟩

end Jump

end Table

end Netfilter
