import Mathlib.Data.List.Forall2

/-! Computations that may fail, and loops over a list that stop at the first failure.
`walk` threads a state through such a loop; what was done to the state before the
failure stays done. -/
namespace Fallible

variable {ε α β σ : Type}

/-- `none` becomes the given error. -/
def require (e : ε) : Option α → Except ε α
  | none => .error e
  | some a => .ok a

/-- The error unless the condition holds. -/
def ensure (e : ε) (ok : Bool) : Except ε Unit := if ok then .ok () else .error e

variable {a : α} {x : Except ε α} {b : β} {as : List α} {bs : List β} {R : α → β → Prop} {γ : Type}

@[simp] theorem require_eq_ok {e : ε} {o : Option α} : require e o = .ok a ↔ o = some a := by
  cases o <;> simp [require]

@[simp] theorem ensure_eq_ok {e : ε} {ok : Bool} {u : Unit} :
    ensure e ok = .ok u ↔ ok = true := by
  cases ok <;> simp [ensure]

theorem bind_eq_ok {f : α → Except ε β} : (x >>= f) = .ok b ↔ ∃ a, x = .ok a ∧ f a = .ok b := by
  cases x with
  | error e => simp [Bind.bind, Except.bind]
  | ok a => simp [Bind.bind, Except.bind]

/-- A computation goes on after a check that passes. -/
theorem ensure_then {p : Prop} [Decidable p] {e : ε} {f : Unit → Except ε β} (hp : p)
    (h : f () = .ok b) : (ensure e (decide p) >>= f) = .ok b :=
  bind_eq_ok.mpr ⟨(), ensure_eq_ok.mpr (decide_eq_true hp), h⟩

/-- It goes on with a value that is there. -/
theorem require_then {e : ε} {o : Option α} {f : α → Except ε β} (ho : o = some a)
    (h : f a = .ok b) : (require e o >>= f) = .ok b :=
  bind_eq_ok.mpr ⟨a, require_eq_ok.mpr ho, h⟩

@[simp] theorem mapError_eq_ok {ε' : Type} {f : ε → ε'} : x.mapError f = .ok a ↔ x = .ok a := by
  cases x <;> simp [Except.mapError]

theorem toOption_eq_some : x.toOption = some a ↔ x = .ok a := by
  cases x <;> simp [Except.toOption]

theorem exists_ok (h : x.isOk = true) : ∃ a, x = .ok a := by
  cases x with
  | error e => cases h
  | ok a => exact ⟨a, rfl⟩

theorem forall_ok {P : α → Prop} (h : ∀ a ∈ x.toOption, P a) :
    ∀ a, x = .ok a → P a := fun a ha => h a (toOption_eq_some.mpr ha)

/-- `f` on every element, up to the first failure. -/
def each (f : α → Except ε β) : List α → Except ε (List β)
  | [] => .ok []
  | a :: as => do
      let b ← f a
      let bs ← each f as
      .ok (b :: bs)

theorem each_eq_ok {f : α → Except ε β} :
    each f as = .ok bs ↔ List.Forall₂ (fun a b => f a = .ok b) as bs := by
  induction as generalizing bs with
  | nil => simp [each, eq_comm]
  | cons a as ih =>
      rw [each, bind_eq_ok, List.forall₂_cons_left_iff]
      constructor
      · rintro ⟨b, hb, hRest⟩
        obtain ⟨cs, hcs, hEq⟩ := bind_eq_ok.mp hRest
        cases hEq
        exact ⟨b, cs, hb, ih.mp hcs, rfl⟩
      · rintro ⟨b, cs, hb, hcs, rfl⟩
        exact ⟨b, hb, bind_eq_ok.mpr ⟨cs, ih.mpr hcs, rfl⟩⟩

/-- An element on the right of a pointwise relation is related to one on the left. -/
theorem exists_left (h : List.Forall₂ R as bs) (hb : b ∈ bs) : ∃ a ∈ as, R a b := by
  induction h with
  | nil => cases hb
  | cons hHead _ ih =>
      rcases List.mem_cons.mp hb with rfl | hb
      · exact ⟨_, List.mem_cons_self, hHead⟩
      · obtain ⟨a, ha, hR⟩ := ih hb
        exact ⟨a, List.mem_cons_of_mem _ ha, hR⟩

/-- An element on the left of a pointwise relation is related to one on the right. -/
theorem exists_right (h : List.Forall₂ R as bs) (ha : a ∈ as) : ∃ b ∈ bs, R a b :=
  exists_left (List.Forall₂.flip (R := flip R) h) ha

/-- Two lists that are related through a third, element by element. -/
theorem exists_between {R : α → γ → Prop} {S : β → γ → Prop}
    (h : List.Forall₂ (fun a b => ∃ c, R a c ∧ S b c) as bs) :
    ∃ cs, List.Forall₂ R as cs ∧ List.Forall₂ S bs cs := by
  induction h with
  | nil => exact ⟨[], .nil, .nil⟩
  | cons hHead _ ih =>
      obtain ⟨c, hR, hS⟩ := hHead
      obtain ⟨cs, hRs, hSs⟩ := ih
      exact ⟨c :: cs, .cons hR hRs, .cons hS hSs⟩

/-- Lists whose elements are related have the same images. -/
theorem map_eq_of_forall₂ (h : List.Forall₂ R as bs) {f : α → γ} {g : β → γ}
    (hR : ∀ a b, R a b → f a = g b) : as.map f = bs.map g := by
  induction h with
  | nil => rfl
  | cons hHead _ ih => rw [List.map_cons, List.map_cons, hR _ _ hHead, ih]

theorem exists_of_mem_each {f : α → Except ε β} (h : each f as = .ok bs) (hb : b ∈ bs) :
    ∃ a ∈ as, f a = .ok b :=
  exists_left (R := fun a b => f a = .ok b) (each_eq_ok.mp h) hb

variable {s : σ} {f : σ → α → σ × Except ε β} {P : σ → Prop}

/-- `f` on every element with a state passed along. -/
def walk (f : σ → α → σ × Except ε β) : σ → List α → σ × Except ε (List β)
  | s, [] => (s, .ok [])
  | s, a :: as =>
      match f s a with
      | (t, .error e) => (t, .error e)
      | (t, .ok b) =>
          match walk f t as with
          | (u, .error e) => (u, .error e)
          | (u, .ok bs) => (u, .ok (b :: bs))

/-- After a call that succeeds the loop goes on from its state. -/
theorem walk_cons_ok {t : σ} (h : f s a = (t, .ok b)) (as : List α) :
    (walk f s (a :: as)).1 = (walk f t as).1 ∧
      (walk f s (a :: as)).2.isOk = (walk f t as).2.isOk := by
  rw [walk, h]
  dsimp only
  rcases walk f t as with ⟨u, e | bs⟩ <;> exact ⟨rfl, rfl⟩

/-- What every call preserves, a loop preserves, also when it stops early. -/
theorem walk_preserves (hStep : ∀ s, P s → ∀ a ∈ as, P (f s a).1) (hs : P s) :
    P (walk f s as).1 := by
  induction as generalizing s with
  | nil => exact hs
  | cons a as ih =>
      have hHead : P (f s a).1 := hStep s hs a List.mem_cons_self
      have hTail := ih (fun s hs a ha => hStep s hs a (List.mem_cons_of_mem _ ha)) hHead
      rw [walk]
      rcases hf : f s a with ⟨t, _ | b⟩ <;> rw [hf] at hHead hTail
      · exact hHead
      · dsimp only
        rcases hw : walk f t as with ⟨u, _ | bs⟩ <;> rw [hw] at hTail <;> exact hTail

/-- What each call establishes between its element and its result, and later calls do
not disturb, holds of all elements at the end. -/
theorem walk_forall₂ {R : σ → α → β → Prop} (hStep : ∀ s, P s → ∀ a ∈ as, P (f s a).1)
    (hResult : ∀ s, P s → ∀ a ∈ as, ∀ b, (f s a).2 = .ok b → R (f s a).1 a b)
    (hMono : ∀ s, P s → ∀ x ∈ as, ∀ a b, R s a b → R (f s x).1 a b) (hs : P s)
    (h : (walk f s as).2 = .ok bs) : List.Forall₂ (R (walk f s as).1) as bs := by
  induction as generalizing s bs with
  | nil =>
      cases h
      exact .nil
  | cons a as ih =>
      have hHead := hResult s hs a List.mem_cons_self
      have hNext : P (f s a).1 := hStep s hs a List.mem_cons_self
      rw [walk] at h ⊢
      rcases hf : f s a with ⟨t, _ | b⟩ <;> rw [hf] at h hHead hNext
      · cases h
      · dsimp only at h ⊢
        -- The relation of the first element survives the rest of the loop.
        have hFirst : R (walk f t as).1 a b := by
          refine (walk_preserves (P := fun t => P t ∧ R t a b) ?_ ⟨hNext, hHead b rfl⟩).2
          rintro u ⟨hP, hR⟩ x hx
          exact ⟨hStep u hP x (List.mem_cons_of_mem _ hx),
            hMono u hP x (List.mem_cons_of_mem _ hx) a b hR⟩
        have hRest : ∀ cs, (walk f t as).2 = .ok cs → List.Forall₂ (R (walk f t as).1) as cs :=
          fun cs => ih (fun s hs a ha => hStep s hs a (List.mem_cons_of_mem _ ha))
            (fun s hs a ha => hResult s hs a (List.mem_cons_of_mem _ ha))
            (fun s hs x hx => hMono s hs x (List.mem_cons_of_mem _ hx)) hNext
        rcases hw : walk f t as with ⟨u, _ | cs⟩ <;> rw [hw] at h hRest hFirst
        · cases h
        · cases h
          exact .cons hFirst (hRest cs rfl)

/-- A loop none of whose calls moves the state. -/
theorem walk_of_fixed (h : List.Forall₂ (fun a b => f s a = (s, .ok b)) as bs) :
    walk f s as = (s, .ok bs) := by
  induction h with
  | nil => rfl
  | cons hHead _ ih =>
      rw [walk, hHead]
      dsimp only
      rw [ih]

/-- A loop over one list and then another. -/
theorem walk_append (f : σ → α → σ × Except ε β) (s : σ) (as bs : List α) :
    walk f s (as ++ bs) =
      match walk f s as with
      | (t, .error e) => (t, .error e)
      | (t, .ok cs) =>
          match walk f t bs with
          | (u, .error e) => (u, .error e)
          | (u, .ok ds) => (u, .ok (cs ++ ds)) := by
  induction as generalizing s with
  | nil =>
      rw [List.nil_append, walk]
      dsimp only
      rcases walk f s bs with ⟨u, e | ds⟩ <;> rfl
  | cons a as ih =>
      rw [List.cons_append, walk, walk]
      rcases f s a with ⟨t, e | b⟩
      · rfl
      · dsimp only
        rw [ih t]
        rcases walk f t as with ⟨u, e | cs⟩
        · rfl
        · dsimp only
          rcases walk f u bs with ⟨v, e | ds⟩ <;> rfl

/-- A loop that succeeds has gone through the first list and then, from there, the second. -/
theorem walk_append_of_ok {bs : List α} {cs : List β} (h : (walk f s (as ++ bs)).2 = .ok cs) :
    (walk f s (as ++ bs)).1 = (walk f (walk f s as).1 bs).1 := by
  rw [walk_append] at h ⊢
  rcases hFirst : walk f s as with ⟨t, e | ds⟩ <;> rw [hFirst] at h
  · cases h
  · dsimp only at h ⊢
    rcases walk f t bs with ⟨u, e | es⟩ <;> rfl

/-- A loop whose body is itself a loop over the parts of an element. -/
def walkParts {γ δ : Type} (f : σ → α → σ × Except ε β) (parts : γ → List α)
    (join : γ → List β → δ) (s : σ) (m : γ) : σ × Except ε δ :=
  ((walk f s (parts m)).1, (walk f s (parts m)).2.map (join m))

/-- A loop of loops does to the state what the loop over all parts does, and succeeds
when it does. -/
theorem walk_walkParts {δ : Type} (f : σ → α → σ × Except ε β) (parts : γ → List α)
    (join : γ → List β → δ) (s : σ) (ms : List γ) :
    (walk (walkParts f parts join) s ms).1 = (walk f s (ms.flatMap parts)).1 ∧
      (walk (walkParts f parts join) s ms).2.isOk = (walk f s (ms.flatMap parts)).2.isOk := by
  induction ms generalizing s with
  | nil => exact ⟨rfl, rfl⟩
  | cons m ms ih =>
      rw [List.flatMap_cons, walk_append, walk, walkParts]
      rcases walk f s (parts m) with ⟨t, e | bs⟩
      · exact ⟨rfl, rfl⟩
      · obtain ⟨hState, hOk⟩ := ih t
        dsimp only [Except.map]
        generalize walk (walkParts f parts join) t ms = left at hState hOk ⊢
        generalize walk f t (ms.flatMap parts) = right at hState hOk ⊢
        rcases left with ⟨u, e | ds⟩ <;> rcases right with ⟨v, e' | es⟩
        · exact ⟨hState, rfl⟩
        · cases hOk
        · cases hOk
        · exact ⟨hState, rfl⟩

theorem walk_results (hResult : ∀ s, ∀ a ∈ as, ∀ b, (f s a).2 = .ok b → R a b)
    (h : (walk f s as).2 = .ok bs) : List.Forall₂ R as bs :=
  walk_forall₂ (P := fun _ => True) (R := fun _ => R) (fun _ _ _ _ => trivial)
    (fun s _ a ha b hb => hResult s a ha b hb) (fun _ _ _ _ _ _ hR => hR) trivial h

/-- What every successful step preserves, a loop that succeeds preserves. -/
theorem foldlM_preserves {f : σ → α → Option σ}
    (hStep : ∀ s, P s → ∀ a ∈ as, ∀ t, f s a = some t → P t) {t : σ} (hs : P s)
    (h : as.foldlM f s = some t) : P t := by
  induction as generalizing s with
  | nil =>
      cases h
      exact hs
  | cons a as ih =>
      rw [List.foldlM_cons] at h
      obtain ⟨u, hu, hRest⟩ := Option.bind_eq_some_iff.mp h
      exact ih (fun s hs b hb => hStep s hs b (List.mem_cons_of_mem _ hb))
        (hStep s hs a List.mem_cons_self u hu) hRest

/-- A loop whose steps all succeed. -/
theorem foldlM_eq_some {f : σ → α → Option σ} {g : σ → α → σ}
    (h : ∀ a ∈ as, ∀ s, f s a = some (g s a)) (s : σ) : as.foldlM f s = some (as.foldl g s) := by
  induction as generalizing s with
  | nil => rfl
  | cons a as ih =>
      rw [List.foldlM_cons, h a List.mem_cons_self s]
      exact ih (fun b hb => h b (List.mem_cons_of_mem _ hb)) (g s a)

/-- Nested loops are one loop over the pairs. -/
theorem foldlM_flatMap {f : σ → β → Option σ} {parts : α → List β} (as : List α) (s : σ) :
    (as.flatMap parts).foldlM f s = as.foldlM (fun s a => (parts a).foldlM f s) s := by
  induction as generalizing s with
  | nil => rfl
  | cons a as ih =>
      rw [List.flatMap_cons, List.foldlM_append, List.foldlM_cons]
      exact congrArg _ (funext fun t => ih t)

end Fallible
