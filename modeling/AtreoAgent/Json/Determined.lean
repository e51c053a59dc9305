import AtreoAgent.Json.Decode
import Mathlib.Data.List.Nodup

/-! When the tree of a document determines the struct it decodes to. All
documents with one tree fill a struct alike exactly if the tree is `Pinned`: the
members that stand for one field agree, and a member that stands for a nested
struct names all of its fields. -/
namespace Json

open Codec

variable {α : Type} {fields : List (String × Leaf)} {n : String} {schema : Schema} {l : Leaf}
  {ms ts : Members} {d e : Doc} {ss : List Store} {es : List Event}

theorem collect_eq_some_iff {f : α → Option (List Event)} {as : List α} {events : List Event} :
    collect f as = some events ↔
      (∀ a ∈ as, (f a).isSome) ∧ events = as.flatMap fun a => (f a).getD [] := by
  induction as generalizing events with
  | nil =>
      constructor
      · rintro ⟨⟩
        simp
      · rintro ⟨-, rfl⟩
        rfl
  | cons a as ih =>
      cases hHead : f a with
      | none => simp [collect, hHead]
      | some es =>
          simp only [collect, hHead, Option.bind_some, Option.map_eq_some_iff, ih,
            List.forall_mem_cons, Option.isSome_some, true_and, List.flatMap_cons, Option.getD_some]
          constructor
          · rintro ⟨rest, ⟨hAll, rfl⟩, rfl⟩
            exact ⟨hAll, rfl⟩
          · rintro ⟨hAll, rfl⟩
            exact ⟨_, ⟨hAll, rfl⟩, rfl⟩

/-- No two fields have names that differ only in case. -/
def DistinctNames {α : Type} (fields : List (String × α)) : Prop :=
  (fields.map fun f => foldName f.1).Nodup

instance {α : Type} (fields : List (String × α)) : Decidable (DistinctNames fields) :=
  inferInstanceAs (Decidable (List.Nodup _))

theorem DistinctNames.eq_of_mem {fields : List (String × α)} (h : DistinctNames fields)
    {f g : String × α} (hf : f ∈ fields) (hg : g ∈ fields) (hName : foldName f.1 = foldName g.1) :
    f = g :=
  List.inj_on_of_nodup_map h hf hg hName

/-- Matching is by folded name when the fields can be told apart that way. -/
theorem DistinctNames.fieldOf_eq_some_iff {fields : List (String × α)} (h : DistinctNames fields)
    {name : String} {f : String × α} :
    fieldOf fields name = some f ↔ f ∈ fields ∧ foldName f.1 = foldName name := by
  unfold fieldOf
  constructor
  · intro hField
    rw [Option.or_eq_some_iff] at hField
    rcases hField with hField | ⟨-, hField⟩
    · have hName := List.find?_some hField
      simp only [decide_eq_true_eq] at hName
      exact ⟨List.mem_of_find?_eq_some hField, by rw [hName]⟩
    · have hName := List.find?_some hField
      simp only [decide_eq_true_eq] at hName
      exact ⟨List.mem_of_find?_eq_some hField, hName⟩
  · rintro ⟨hMem, hName⟩
    have hSome : ∀ g : String × α, g ∈ fields → foldName g.1 = foldName name → g = f :=
      fun g hg hg' => h.eq_of_mem hg hMem (hg'.trans hName.symm)
    cases hExact : fields.find? fun f => f.1 = name with
    | some g =>
        have hEq := List.find?_some hExact
        simp only [decide_eq_true_eq] at hEq
        rw [hSome g (List.mem_of_find?_eq_some hExact) (by rw [hEq]), Option.some_or]
    | none =>
        rw [Option.none_or]
        cases hFold : fields.find? fun f => foldName f.1 = foldName name with
        | some g =>
            have hEq := List.find?_some hFold
            simp only [decide_eq_true_eq] at hEq
            rw [hSome g (List.mem_of_find?_eq_some hFold) hEq]
        | none => exact absurd hName (by simpa using List.find?_eq_none.mp hFold f hMem)

/-- The shapes of a schema can be told apart by name, at both levels. -/
def Schema.Distinct (schema : Schema) : Prop :=
  DistinctNames schema ∧ ∀ f ∈ schema, match f.2 with
    | .leaf _ => True
    | .record fields => DistinctNames fields

instance (schema : Schema) : Decidable schema.Distinct :=
  @instDecidableAnd _ _ _ <| @List.decidableBAll _ _ (fun f =>
    match f.2 with
    | .leaf _ => isTrue trivial
    | .record fields => inferInstanceAs (Decidable (DistinctNames fields))) schema

/-- A member name stands for a field. -/
def Names (name field : String) : Prop := foldName field = foldName name

instance (name field : String) : Decidable (Names name field) :=
  inferInstanceAs (Decidable (_ = _))

def Doc.members : Doc → Members
  | .obj members => members
  | _ => []

@[simp] theorem members_obj (members : Members) : (Doc.obj members).members = members := rfl

/-- Two values agree on a field. For a plain field they make the same stores; for a
nested struct the first names every field of it, and what they name agrees. -/
def Agree : Shape → Doc → Doc → Prop
  | .leaf l, d, e => leafStores l d = leafStores l e
  | .record fields, d, e => ∀ g ∈ fields,
      (∃ k ∈ d.members, Names k.1 g.1) ∧
      ∀ j ∈ d.members, Names j.1 g.1 → ∀ k ∈ e.members, Names k.1 g.1 →
        leafStores g.2 j.2 = leafStores g.2 k.2

instance : ∀ (shape : Shape) (d e : Doc), Decidable (Agree shape d e)
  | .leaf l, d, e => inferInstanceAs (Decidable (leafStores l d = leafStores l e))
  | .record fields, d, e => inferInstanceAs (Decidable (∀ g ∈ fields,
      (∃ k ∈ d.members, Names k.1 g.1) ∧
      ∀ j ∈ d.members, Names j.1 g.1 → ∀ k ∈ e.members, Names k.1 g.1 →
        leafStores g.2 j.2 = leafStores g.2 k.2))

/-- Any two members that stand for one field agree on it. -/
def Pinned (schema : Schema) (ts : Members) : Prop :=
  ∀ f ∈ schema, ∀ m ∈ ts, Names m.1 f.1 → ∀ n ∈ ts, Names n.1 f.1 → Agree f.2 m.2 n.2

instance (schema : Schema) (ts : Members) : Decidable (Pinned schema ts) :=
  inferInstanceAs (Decidable (∀ f ∈ schema, ∀ m ∈ ts, Names m.1 f.1 →
    ∀ n ∈ ts, Names n.1 f.1 → Agree f.2 m.2 n.2))

theorem storesAt_append (path : List String) (xs ys : List Event) :
    storesAt path (xs ++ ys) = storesAt path xs ++ storesAt path ys := by
  simp [storesAt]

theorem storesAt_flatMap (path : List String) (f : α → List Event) (as : List α) :
    storesAt path (as.flatMap f) = as.flatMap fun a => storesAt path (f a) := by
  induction as with
  | nil => rfl
  | cons a as ih => rw [List.flatMap_cons, List.flatMap_cons, storesAt_append, ih]

theorem storesAt_map_same (path : List String) (ss : List Store) :
    storesAt path (ss.map fun s => (path, s)) = ss := by
  induction ss with
  | nil => rfl
  | cons s ss ih => simpa [storesAt] using ih

theorem storesAt_map_other {path other : List String} (h : other ≠ path) (ss : List Store) :
    storesAt path (ss.map fun s => (other, s)) = [] := by
  induction ss with
  | nil => rfl
  | cons s ss ih => simp [storesAt, h]

variable {g : String × Leaf}

/-- What a member of a nested struct stores into the field `g`. -/
theorem storesAt_recordEvent (hDistinct : DistinctNames fields) (hg : g ∈ fields) (n : String)
    (m : String × Doc) :
    storesAt [n, g.1] ((recordEvent [n] fields m).getD []) =
      if Names m.1 g.1 then (leafStores g.2 m.2).getD [] else [] := by
  unfold recordEvent
  cases hField : fieldOf fields m.1 with
  | none =>
      have hNames : ¬ Names m.1 g.1 := by
        intro h
        rw [hDistinct.fieldOf_eq_some_iff.mpr ⟨hg, h⟩] at hField
        cases hField
      rw [if_neg hNames]
      rfl
  | some f =>
      obtain ⟨hf, hName⟩ := hDistinct.fieldOf_eq_some_iff.mp hField
      by_cases hNames : Names m.1 g.1
      · obtain rfl := hDistinct.eq_of_mem hf hg (hName.trans hNames.symm)
        rw [if_pos hNames]
        cases hStores : leafStores f.2 m.2 with
        | none => simp [hStores, storesAt]
        | some ss => simpa [hStores] using storesAt_map_same [n, f.1] ss
      · have hOther : [n, f.1] ≠ [n, g.1] := by
          intro h
          simp only [List.cons.injEq, true_and, and_true] at h
          exact hNames (by rw [Names, ← h, hName])
        rw [if_neg hNames]
        cases hStores : leafStores f.2 m.2 with
        | none => simp [hStores, storesAt]
        | some ss => simpa [hStores] using storesAt_map_other hOther ss

/-- The events of a field all lie below its name. -/
theorem storesAt_shapeEvents_other {name : String} (h : name ≠ n) (tail : List String)
    (shape : Shape) (d : Doc) : storesAt (n :: tail) ((shapeEvents name shape d).getD []) = [] := by
  cases shape with
  | leaf l =>
      have hOther : [name] ≠ n :: tail := fun hEq => h (List.cons.inj hEq).1
      cases hStores : leafStores l d with
      | none => simp [shapeEvents, hStores, storesAt]
      | some ss => simpa [shapeEvents, hStores] using storesAt_map_other hOther ss
  | record fields =>
      cases d with
      | obj members =>
          rw [shapeEvents]
          cases hCollect : collect (recordEvent [name] fields) members with
          | none => rfl
          | some events =>
              rw [(collect_eq_some_iff.mp hCollect).2, Option.getD_some, storesAt_flatMap]
              apply List.flatMap_eq_nil_iff.mpr
              intro m _
              unfold recordEvent
              cases fieldOf fields m.1 with
              | none => rfl
              | some f =>
                  have hOther : [name] ++ [f.1] ≠ n :: tail := fun hEq => h (List.cons.inj hEq).1
                  cases hStores : leafStores f.2 m.2 with
                  | none => simp [hStores, storesAt]
                  | some ss => simpa [hStores] using storesAt_map_other hOther ss
      | _ => rfl

/-- A member that stands for another field stores nothing below `n`. -/
theorem storesAt_memberEvents_other (hDistinct : DistinctNames schema) {m : String × Doc}
    (hNames : ¬ Names m.1 n) (tail : List String) :
    storesAt (n :: tail) ((memberEvents schema m).getD []) = [] := by
  unfold memberEvents
  cases hField : fieldOf schema m.1 with
  | none => rfl
  | some g =>
      have hName := (hDistinct.fieldOf_eq_some_iff.mp hField).2
      exact storesAt_shapeEvents_other (fun hEq => hNames (by rw [Names, ← hEq, hName])) tail g.2 m.2

theorem memberEvents_of_names (hDistinct : DistinctNames schema) {f : String × Shape}
    (hf : f ∈ schema) {m : String × Doc} (hNames : Names m.1 f.1) :
    memberEvents schema m = shapeEvents f.1 f.2 m.2 := by
  unfold memberEvents
  rw [hDistinct.fieldOf_eq_some_iff.mpr ⟨hf, hNames⟩]

/-- The stores of a plain field come from the members that stand for it. -/
theorem storesAt_leaf (hDistinct : DistinctNames schema) (hf : (n, Shape.leaf l) ∈ schema)
    (ms : Members) :
    storesAt [n] (ms.flatMap fun m => (memberEvents schema m).getD []) =
      ms.flatMap fun m => if Names m.1 n then (leafStores l m.2).getD [] else [] := by
  rw [storesAt_flatMap]
  apply List.flatMap_congr
  intro m _
  by_cases hNames : Names m.1 n
  · rw [if_pos hNames, memberEvents_of_names hDistinct hf hNames, shapeEvents]
    cases hStores : leafStores l m.2 with
    | none => rfl
    | some ss => exact storesAt_map_same [n] ss
  · rw [if_neg hNames]
    exact storesAt_memberEvents_other hDistinct hNames []

/-- The stores of a nested field come from the members of the members that stand
for its struct. -/
theorem storesAt_record (hDistinct : DistinctNames schema)
    (hf : (n, Shape.record fields) ∈ schema) (hFields : DistinctNames fields) (hg : g ∈ fields)
    (hDecodes : ∀ m ∈ ms, (memberEvents schema m).isSome) :
    storesAt [n, g.1] (ms.flatMap fun m => (memberEvents schema m).getD []) =
      ms.flatMap fun m => if Names m.1 n then
        m.2.members.flatMap fun k => if Names k.1 g.1 then (leafStores g.2 k.2).getD [] else []
        else [] := by
  rw [storesAt_flatMap]
  apply List.flatMap_congr
  intro m hm
  by_cases hNames : Names m.1 n
  · have hSome := hDecodes m hm
    rw [memberEvents_of_names hDistinct hf hNames] at hSome
    rw [if_pos hNames, memberEvents_of_names hDistinct hf hNames]
    cases hDoc : m.2 with
    | obj members =>
        rw [hDoc, shapeEvents] at hSome
        obtain ⟨events, hEvents⟩ := Option.isSome_iff_exists.mp hSome
        rw [shapeEvents, hEvents, (collect_eq_some_iff.mp hEvents).2, Option.getD_some,
          storesAt_flatMap]
        exact List.flatMap_congr fun k _ => storesAt_recordEvent hFields hg n k
    | null => rfl
    | _ => simp [hDoc, shapeEvents] at hSome
  · rw [if_neg hNames]
    exact storesAt_memberEvents_other hDistinct hNames [g.1]

/-- A store that settles its field whatever it held before. -/
def Settles : Leaf → Store → Prop
  | .text, .text _ => True
  | .int, .int _ => True
  | .texts, .texts items => ∀ i ∈ items, i.isSome
  | _, _ => False

theorem fillSlice_of_settles {items : List (Option String)} (h : ∀ i ∈ items, i.isSome) :
    ∀ old, fillSlice old items = items.map fun i => i.getD "" := by
  induction items with
  | nil => simp [fillSlice]
  | cons i items ih =>
      obtain ⟨hHead, hTail⟩ := List.forall_mem_cons.mp h
      obtain ⟨s, rfl⟩ := Option.isSome_iff_exists.mp hHead
      intro old
      simp [fillSlice, ih hTail]

theorem visible_store_texts {items : List (Option String)} (h : ∀ i ∈ items, i.isSome)
    (slice : Slice) :
    (slice.store (.texts items)).visible = some (items.map fun i => i.getD "") := by
  cases items with
  | nil => rfl
  | cons i items =>
      simp only [Slice.store]
      rw [fillSlice_of_settles h]

/-- A settling store hides everything before it. -/
theorem Settles.final_append {s : Store} (h : Settles l s) (xs : List Store) :
    l.final (xs ++ [s]) = l.final [s] := by
  cases l <;> cases s <;> simp only [Settles] at h
  · simp [Leaf.final, finalText]
  · simp [Leaf.final, finalInt]
  · simp only [Leaf.final, finalTexts, List.foldl_append, List.foldl_cons, List.foldl_nil,
      visible_store_texts h]

/-- A settling store can be read off the value it leaves. -/
theorem Settles.eq_of_final_eq {s t : Store} (hs : Settles l s) (ht : Settles l t)
    (h : l.final [s] = l.final [t]) : s = t := by
  cases l <;> cases s <;> simp only [Settles] at hs <;> cases t <;> simp only [Settles] at ht
  · simpa [Leaf.final, finalText] using h
  · simpa [Leaf.final, finalInt] using h
  · rename_i items others
    simp only [Leaf.final, finalTexts, List.foldl_cons, List.foldl_nil, visible_store_texts hs,
      visible_store_texts ht, Value.texts.injEq, Option.some.injEq] at h
    have hSome : ∀ {is : List (Option String)}, (∀ i ∈ is, i.isSome) →
        (is.map fun i => i.getD "").map some = is := by
      intro is his
      rw [List.map_map]
      conv_rhs => rw [← List.map_id is]
      apply List.map_congr_left
      intro i hi
      obtain ⟨s, rfl⟩ := Option.isSome_iff_exists.mp (his i hi)
      rfl
    rw [← hSome hs, ← hSome ht, h]

/-- A value without `null` makes one settling store. -/
theorem leafStores_of_nullFree (hNull : d.nullFree = true) (h : leafStores l d = some ss) :
    ∃ s, ss = [s] ∧ Settles l s := by
  cases l <;> cases d <;> simp only [leafStores, Option.some.injEq, Option.map_eq_some_iff,
    reduceCtorEq, Doc.nullFree, Bool.false_eq_true] at h hNull
  · exact ⟨_, h.symm, trivial⟩
  · obtain ⟨n, -, rfl⟩ := h
    exact ⟨_, rfl, trivial⟩
  · rename_i items
    obtain ⟨ts, hItems, rfl⟩ := h
    refine ⟨_, rfl, ?_⟩
    have hParts := (nullFreeItems_iff items).mp hNull
    clear hNull
    induction items generalizing ts with
    | nil =>
        simp only [List.mapM_nil, Option.pure_def, Option.some.injEq] at hItems
        subst ts
        simp [Settles]
    | cons e es ih =>
        obtain ⟨hHead, hTail⟩ := List.forall_mem_cons.mp hParts
        simp only [List.mapM_cons, Option.pure_def, Option.bind_eq_bind, Option.bind_eq_some_iff,
          Option.some.injEq] at hItems
        obtain ⟨t, hText, rest, hRest, rfl⟩ := hItems
        have hSettles := ih rest hRest hTail
        cases e <;> simp only [textItem, Option.some.injEq, reduceCtorEq, Doc.nullFree,
          Bool.false_eq_true] at hText hHead
        subst t
        simpa [Settles] using hSettles

theorem textItem_tree (d : Doc) : textItem d.tree = textItem d := by
  cases d <;> simp [Doc.tree, textItem]

/-- A plain field takes the same from a value and from its tree. -/
theorem leafStores_tree (l : Leaf) (d : Doc) : leafStores l d.tree = leafStores l d := by
  cases d with
  | arr items =>
      have hItems : (items.map Doc.tree).mapM textItem = items.mapM textItem := by
        induction items with
        | nil => rfl
        | cons d ds ih => simp only [List.map_cons, List.mapM_cons, textItem_tree, ih]
      rw [tree_arr]
      cases l <;> simp only [leafStores, hItems]
  | obj members => cases l <;> simp [Doc.tree, leafStores]
  | _ => rfl

theorem findLast_append (k : String) (xs ys : Members) :
    findLast k (xs ++ ys) = (findLast k ys).or (findLast k xs) := by
  induction xs with
  | nil => simp [findLast]
  | cons m xs ih => simp [findLast, ih, Option.or_assoc]

theorem findLast_eq_none {k : String} (h : ∀ m ∈ ms, m.1 ≠ k) : findLast k ms = none := by
  induction ms with
  | nil => rfl
  | cons m ms ih =>
      obtain ⟨hHead, hTail⟩ := List.forall_mem_cons.mp h
      simp [findLast, ih hTail, hHead]

/-- The last member that stands for a field is in the tree, if there is one. -/
theorem exists_last_named (hTree : treeMembers ms [] = ts) (n : String) :
    ((∀ m ∈ ms, ¬ Names m.1 n) ∧ ∀ t ∈ ts, ¬ Names t.1 n) ∨
    ∃ xs m ys, ms = xs ++ m :: ys ∧ Names m.1 n ∧ (∀ y ∈ ys, ¬ Names y.1 n) ∧
      (m.1, m.2.tree) ∈ ts := by
  by_cases hNone : ∀ m ∈ ms, ¬ Names m.1 n
  · left
    refine ⟨hNone, ?_⟩
    intro t ht
    rw [← hTree] at ht
    rcases mem_treeMembers ht with h | ⟨m, hm, rfl⟩
    · simp at h
    · exact hNone m hm
  · right
    obtain ⟨xs, m, ys, rfl, hm, hys⟩ : ∃ xs m ys, ms = xs ++ m :: ys ∧ Names m.1 n ∧
        ∀ y ∈ ys, ¬ Names y.1 n := by
      clear hTree
      induction ms with
      | nil => simp at hNone
      | cons m ms ih =>
          by_cases hTail : ∀ y ∈ ms, ¬ Names y.1 n
          · refine ⟨[], m, ms, rfl, ?_, hTail⟩
            by_contra hm
            exact hNone (List.forall_mem_cons.mpr ⟨hm, hTail⟩)
          · obtain ⟨xs, k, ys, rfl, hk, hys⟩ := ih hTail
            exact ⟨m :: xs, k, ys, rfl, hk, hys⟩
    refine ⟨xs, m, ys, rfl, hm, hys, ?_⟩
    apply mem_of_find_eq_some
    have hLater : findLast m.1 ys = none := findLast_eq_none fun y hy hEq =>
      hys y hy (by rw [hEq]; exact hm)
    rw [← hTree, find_treeMembers, findLast_append, findLast, hLater]
    simp

/-- Members behind the last one that counts add nothing. -/
theorem flatMap_last {β : Type} {xs ys : List α} {m : α} (p : α → Prop) [DecidablePred p]
    (f : α → List β) (hm : p m) (hys : ∀ y ∈ ys, ¬ p y) :
    ((xs ++ m :: ys).flatMap fun a => if p a then f a else []) =
      (xs.flatMap fun a => if p a then f a else []) ++ f m := by
  have hNil : (ys.flatMap fun a => if p a then f a else []) = [] :=
    List.flatMap_eq_nil_iff.mpr fun y hy => if_neg (hys y hy)
  simp [hNil, hm]

def Decodes (schema : Schema) (ms : Members) : Prop := ∀ m ∈ ms, (memberEvents schema m).isSome

def events (schema : Schema) (ms : Members) : List Event :=
  ms.flatMap fun m => (memberEvents schema m).getD []

theorem decodeStruct_obj :
    decodeStruct schema (.obj ms) = some es ↔ Decodes schema ms ∧ es = events schema ms :=
  collect_eq_some_iff

theorem storesAt_decodeStruct (hDistinct : DistinctNames schema) (hf : (n, Shape.leaf l) ∈ schema)
    (h : decodeStruct schema d = some es) :
    storesAt [n] es =
      d.members.flatMap fun m => if Names m.1 n then (leafStores l m.2).getD [] else [] := by
  cases d with
  | null =>
      cases h
      rfl
  | obj ms =>
      rw [(decodeStruct_obj.mp h).2]
      exact storesAt_leaf hDistinct hf ms
  | _ => cases h

/-- What a plain field is read as does not depend on the other fields of the struct. -/
theorem storesAt_unmarshal {schema' : Schema} (hDistinct : DistinctNames schema)
    (hDistinct' : DistinctNames schema') (hf : (n, Shape.leaf l) ∈ schema)
    (hf' : (n, Shape.leaf l) ∈ schema') {bs : Bytes} {es' : List Event}
    (h : unmarshal schema bs = some es) (h' : unmarshal schema' bs = some es') :
    storesAt [n] es = storesAt [n] es' := by
  obtain ⟨d, hDoc, hEvents⟩ := Option.bind_eq_some_iff.mp h
  obtain ⟨d', hDoc', hEvents'⟩ := Option.bind_eq_some_iff.mp h'
  obtain rfl := Option.some.inj (hDoc.symm.trans hDoc')
  rw [storesAt_decodeStruct hDistinct hf hEvents, storesAt_decodeStruct hDistinct' hf' hEvents']

/-- The stores of a field are settled by one member of the tree, under which `leafStores`
can be found. -/
def SettledBy (l : Leaf) (ss : List Store) (d : Doc) : Prop :=
  ∃ xs s, ss = xs ++ [s] ∧ leafStores l d = some [s] ∧ Settles l s

theorem SettledBy.final_eq {tt : List Store} (hs : SettledBy l ss d) (ht : SettledBy l tt e)
    (h : leafStores l d = leafStores l e) : l.final ss = l.final tt := by
  obtain ⟨xs, s, rfl, hd, hs⟩ := hs
  obtain ⟨ys, t, rfl, he, ht⟩ := ht
  rw [hs.final_append, ht.final_append]
  rw [hd, he] at h
  rw [Option.some.inj h]

theorem SettledBy.stores_eq {tt : List Store} (hs : SettledBy l ss d) (ht : SettledBy l tt e)
    (h : l.final ss = l.final tt) : leafStores l d = leafStores l e := by
  obtain ⟨xs, s, rfl, hd, hs⟩ := hs
  obtain ⟨ys, t, rfl, he, ht⟩ := ht
  rw [hs.final_append, ht.final_append] at h
  rw [hd, he, hs.eq_of_final_eq ht h]

theorem settledBy_append (hNull : d.tree.nullFree = true) (hSome : (leafStores l d).isSome)
    (xs : List Store) : SettledBy l (xs ++ (leafStores l d).getD []) d.tree := by
  obtain ⟨ss, hss⟩ := Option.isSome_iff_exists.mp hSome
  rw [← leafStores_tree] at hss
  obtain ⟨s, rfl, hSettles⟩ := leafStores_of_nullFree hNull hss
  refine ⟨xs, s, ?_, hss, hSettles⟩
  rw [← leafStores_tree, hss]
  rfl

section Tree

variable {schema : Schema} (hDistinct : schema.Distinct) {ms ts : Members}
  (hTree : treeMembers ms [] = ts) (hNull : ∀ t ∈ ts, t.2.nullFree = true)
  (hDecodes : Decodes schema ms)
include hDistinct hTree hNull hDecodes

/-- A plain field is untouched or settled by a member of the tree. -/
theorem settled_leaf {n : String} {l : Leaf} (hf : (n, Shape.leaf l) ∈ schema) :
    ((∀ t ∈ ts, ¬ Names t.1 n) ∧ storesAt [n] (events schema ms) = []) ∨
    ∃ t ∈ ts, Names t.1 n ∧ SettledBy l (storesAt [n] (events schema ms)) t.2 := by
  rw [events, storesAt_leaf hDistinct.1 hf]
  rcases exists_last_named hTree n with ⟨hNone, hNone'⟩ | ⟨xs, m, ys, rfl, hm, hys, ht⟩
  · left
    exact ⟨hNone', List.flatMap_eq_nil_iff.mpr fun m hm => if_neg (hNone m hm)⟩
  · right
    refine ⟨_, ht, hm, ?_⟩
    rw [flatMap_last (fun m : String × Doc => Names m.1 n)
      (fun m => (leafStores l m.2).getD []) hm hys]
    apply settledBy_append (hNull _ ht)
    have hSome := hDecodes m (by simp)
    rw [memberEvents_of_names hDistinct.1 hf hm, shapeEvents] at hSome
    simpa using hSome

/-- A nested field is untouched, or settled by a member of the last struct, or that
struct does not name it. -/
theorem settled_record {n : String} {fields : List (String × Leaf)}
    (hf : (n, Shape.record fields) ∈ schema) (hg : g ∈ fields) :
    ((∀ t ∈ ts, ¬ Names t.1 n) ∧ storesAt [n, g.1] (events schema ms) = []) ∨
    ∃ t ∈ ts, Names t.1 n ∧ ((∀ k ∈ t.2.members, ¬ Names k.1 g.1) ∨
      ∃ k ∈ t.2.members, Names k.1 g.1 ∧
        SettledBy g.2 (storesAt [n, g.1] (events schema ms)) k.2) := by
  have hFields : DistinctNames fields := hDistinct.2 _ hf
  rw [events, storesAt_record hDistinct.1 hf hFields hg hDecodes]
  rcases exists_last_named hTree n with ⟨hNone, hNone'⟩ | ⟨xs, m, ys, rfl, hm, hys, ht⟩
  · left
    exact ⟨hNone', List.flatMap_eq_nil_iff.mpr fun m hm => if_neg (hNone m hm)⟩
  · right
    refine ⟨_, ht, hm, ?_⟩
    have hSome := hDecodes m (by simp)
    rw [memberEvents_of_names hDistinct.1 hf hm] at hSome
    rw [flatMap_last (fun m : String × Doc => Names m.1 n) (fun m => m.2.members.flatMap fun k =>
      if Names k.1 g.1 then (leafStores g.2 k.2).getD [] else []) hm hys]
    have hNullM := hNull _ ht
    cases hDoc : m.2 with
    | obj ns =>
        rw [hDoc] at hNullM hSome
        rw [tree_obj] at hNullM ⊢
        rcases exists_last_named (rfl : treeMembers ns [] = _) g.1 with
          ⟨-, hNone⟩ | ⟨us, k, vs, rfl, hk, hvs, hkt⟩
        · exact Or.inl hNone
        · refine Or.inr ⟨_, hkt, hk, ?_⟩
          rw [members_obj, flatMap_last (fun k : String × Doc => Names k.1 g.1)
            (fun k => (leafStores g.2 k.2).getD []) hk hvs, ← List.append_assoc]
          apply settledBy_append ((nullFreeMembers_iff _).mp hNullM _ hkt)
          rw [shapeEvents] at hSome
          obtain ⟨es, hes⟩ := Option.isSome_iff_exists.mp hSome
          have hRecord := (collect_eq_some_iff.mp hes).1 k (by simp)
          rw [recordEvent, hFields.fieldOf_eq_some_iff.mpr ⟨hg, hk⟩] at hRecord
          simpa using hRecord
    | null =>
        rw [hDoc] at hNullM
        cases hNullM
    | _ =>
        rw [hDoc] at hSome
        cases hSome

end Tree

/-- Documents with one pinned tree leave the same values in every plain field. -/
theorem Pinned.final_eq (hDistinct : schema.Distinct) {ns : Members} (hPinned : Pinned schema ts)
    (hNull : ∀ t ∈ ts, t.2.nullFree = true) (hms : treeMembers ms [] = ts)
    (hns : treeMembers ns [] = ts) (hDecodesM : Decodes schema ms) (hDecodesN : Decodes schema ns) :
    ∀ p ∈ leaves schema, p.2.final (storesAt p.1 (events schema ms)) =
      p.2.final (storesAt p.1 (events schema ns)) := by
  intro p hp
  simp only [leaves, List.mem_flatMap] at hp
  obtain ⟨⟨n, shape⟩, hf, hp⟩ := hp
  cases shape with
  | leaf l =>
      simp only [List.mem_singleton] at hp
      subst p
      rcases settled_leaf hDistinct hms hNull hDecodesM hf with ⟨hNone, hm⟩ | ⟨s, hs, hNs, hm⟩
      · rcases settled_leaf hDistinct hns hNull hDecodesN hf with ⟨-, hn⟩ | ⟨t, ht, hNt, -⟩
        · simp only [hm, hn]
        · exact absurd hNt (hNone t ht)
      · rcases settled_leaf hDistinct hns hNull hDecodesN hf with ⟨hNone, -⟩ | ⟨t, ht, hNt, hn⟩
        · exact absurd hNs (hNone s hs)
        · exact hm.final_eq hn (hPinned _ hf s hs hNs t ht hNt)
  | record fields =>
      simp only [List.mem_map] at hp
      obtain ⟨g, hg, rfl⟩ := hp
      rcases settled_record hDistinct hms hNull hDecodesM hf hg with ⟨hNone, hm⟩ | ⟨s, hs, hNs, hm⟩
      · rcases settled_record hDistinct hns hNull hDecodesN hf hg with ⟨-, hn⟩ | ⟨t, ht, hNt, -⟩
        · simp only [hm, hn]
        · exact absurd hNt (hNone t ht)
      · rcases settled_record hDistinct hns hNull hDecodesN hf hg with
          ⟨hNone, -⟩ | ⟨t, ht, hNt, hn⟩
        · exact absurd hNs (hNone s hs)
        · obtain ⟨⟨k, hk, hNk⟩, hAgree⟩ := hPinned _ hf s hs hNs t ht hNt g hg
          obtain ⟨⟨j, hj, hNj⟩, -⟩ := hPinned _ hf t ht hNt s hs hNs g hg
          rcases hm with hm | ⟨a, ha, hNa, hm⟩
          · exact absurd hNk (hm k hk)
          · rcases hn with hn | ⟨b, hb, hNb, hn⟩
            · exact absurd hNj (hn j hj)
            · exact hm.final_eq hn (hAgree a ha hNa b hb hNb)

theorem sorted_of_isTree (h : (Doc.obj ts).IsTree) : Sorted ts := by
  rw [Doc.IsTree, tree_obj, Doc.obj.injEq] at h
  rw [← h]
  exact sorted_treeMembers ts (by simp [Sorted])

theorem isTree_of_mem (h : (Doc.obj ts).IsTree) {t : String × Doc} (ht : t ∈ ts) : t.2.IsTree := by
  rw [Doc.IsTree, tree_obj, Doc.obj.injEq] at h
  rw [← h] at ht
  rcases mem_treeMembers ht with ht | ⟨m, -, rfl⟩
  · simp at ht
  · exact isTree_tree m.2

/-- The map with the entry `k` taken out and `tail` put behind the rest. -/
def lastly (ts : Members) (k : String) (tail : Members) : Members :=
  ts.filter (fun t => t.1 ≠ k) ++ tail

/-- Moving an entry to the end, behind other members of its name, keeps the tree. -/
theorem treeMembers_lastly (hTree : (Doc.obj ts).IsTree) {t : String × Doc} (ht : t ∈ ts)
    {v : Doc} (hv : v.tree = t.2) (before : Members) (hBefore : ∀ y ∈ before, y.1 = t.1) :
    treeMembers (lastly ts t.1 (before ++ [(t.1, v)])) [] = ts := by
  have hSorted := sorted_of_isTree hTree
  apply treeMembers_eq_of_find hSorted
  intro k
  by_cases hk : t.1 = k
  · subst hk
    rw [find_eq_some_of_mem hSorted ht, lastly, findLast_append, findLast_append]
    simp [findLast, hv]
  · have hFilter : findLast k (ts.filter fun s => s.1 ≠ t.1) = findLast k ts := by
      clear hTree ht hSorted
      induction ts with
      | nil => rfl
      | cons s ss ih =>
          rw [List.filter_cons]
          split
          · rw [findLast, findLast, ih]
          · rename_i hs
            have hs : s.1 = t.1 := by simpa using hs
            rw [ih, findLast, hs, if_neg hk, Option.or_none]
    have hTail : findLast k (before ++ [(t.1, v)]) = none := by
      apply findLast_eq_none
      intro y hy
      rcases List.mem_append.mp hy with hy | hy
      · rw [hBefore y hy]
        exact hk
      · simp only [List.mem_singleton] at hy
        subst y
        exact hk
    rw [lastly, findLast_append, hTail, Option.none_or, hFilter, findLast_eq_find hSorted]
    cases hFind : find k ts with
    | none => rfl
    | some d => exact congrArg some (isTree_of_mem hTree (mem_of_find_eq_some hFind))

theorem decodes_lastly {tail : Members} (hTs : Decodes schema ts) (hTail : Decodes schema tail)
    (k : String) : Decodes schema (lastly ts k tail) := by
  intro m hm
  rcases List.mem_append.mp hm with hm | hm
  · exact hTs m (List.mem_of_mem_filter hm)
  · exact hTail m hm

theorem heightMembers_lastly {tail : Members} {n : Nat} (hTs : Doc.heightMembers ts ≤ n)
    (hTail : Doc.heightMembers tail ≤ n) (k : String) :
    Doc.heightMembers (lastly ts k tail) ≤ n := by
  apply Doc.heightMembers_le
  intro m hm
  rcases List.mem_append.mp hm with hm | hm
  · exact Doc.height_le_of_mem_members hTs m (List.mem_of_mem_filter hm)
  · exact Doc.height_le_of_mem_members hTail m hm

/-- A member that stands for a nested struct decodes if it is an object whose
members do. -/
theorem isSome_memberEvents_record (hDistinct : DistinctNames schema)
    (hf : (n, Shape.record fields) ∈ schema) {k : String} (hk : Names k n) (members : Members) :
    (memberEvents schema (k, .obj members)).isSome ↔
      ∀ m ∈ members, (recordEvent [n] fields m).isSome := by
  rw [memberEvents_of_names hDistinct hf hk, shapeEvents, Option.isSome_iff_exists]
  constructor
  · rintro ⟨es, hes⟩
    exact (collect_eq_some_iff.mp hes).1
  · intro hAll
    exact ⟨_, collect_eq_some_iff.mpr ⟨hAll, rfl⟩⟩

/-- Two values of a plain field that differ. -/
def sample : Leaf → Bool → Doc
  | .text, b => .str (if b then "x" else "")
  | .int, b => .num (if b then ⟨[0x31], rfl⟩ else ⟨[0x30], rfl⟩)
  | .texts, b => .arr (if b then [.str ""] else [])

theorem sample_ne (l : Leaf) : leafStores l (sample l true) ≠ leafStores l (sample l false) := by
  cases l <;> decide +kernel

theorem isSome_leafStores_sample (l : Leaf) (b : Bool) : (leafStores l (sample l b)).isSome := by
  cases l <;> cases b <;> rfl

theorem nullFree_sample (l : Leaf) (b : Bool) : (sample l b).tree.nullFree = true := by
  cases l <;> cases b <;> rfl

theorem height_sample (l : Leaf) (b : Bool) : (sample l b).height ≤ 1 := by
  cases l <;> cases b <;> decide

theorem tree_sample (l : Leaf) (b : Bool) : (sample l b).tree = sample l b := by
  cases l <;> cases b <;> rfl

/-- All documents with the tree `ts` and at most `bound` nested containers leave the
same values. -/
def Uniform (schema : Schema) (bound : Nat) (ts : Members) : Prop :=
  ∀ ms ns, treeMembers ms [] = ts → treeMembers ns [] = ts → Decodes schema ms →
    Decodes schema ns → Doc.heightMembers ms ≤ bound → Doc.heightMembers ns ≤ bound →
    ∀ p ∈ leaves schema, p.2.final (storesAt p.1 (events schema ms)) =
      p.2.final (storesAt p.1 (events schema ns))

/-- Some document with the tree `ts` lets the value `d` settle the field at `path`. -/
def Shows (schema : Schema) (bound : Nat) (ts : Members) (path : List String) (l : Leaf)
    (d : Doc) : Prop :=
  ∃ ms, treeMembers ms [] = ts ∧ Decodes schema ms ∧ Doc.heightMembers ms ≤ bound ∧
    SettledBy l (storesAt path (events schema ms)) d

theorem Uniform.stores_eq {bound : Nat} (h : Uniform schema bound ts) {path : List String}
    (hPath : (path, l) ∈ leaves schema) (hd : Shows schema bound ts path l d)
    (he : Shows schema bound ts path l e) : leafStores l d = leafStores l e := by
  obtain ⟨ms, hms, hDecodesM, hHeightM, hd⟩ := hd
  obtain ⟨ns, hns, hDecodesN, hHeightN, he⟩ := he
  exact hd.stores_eq he (h ms ns hms hns hDecodesM hDecodesN hHeightM hHeightN _ hPath)

section Variants

variable {schema : Schema} (hDistinct : schema.Distinct) {bound : Nat} {ts : Members}
  (hTree : (Doc.obj ts).IsTree) (hNull : ∀ t ∈ ts, t.2.nullFree = true)
  (hDecodes : Decodes schema ts) (hHeight : Doc.heightMembers ts ≤ bound)
include hDistinct hTree hNull hDecodes hHeight

variable {n : String} {t : String × Doc} {fields : List (String × Leaf)}

/-- Any member that stands for a plain field may come last. -/
theorem shows_leaf {l : Leaf} (hf : (n, Shape.leaf l) ∈ schema) (ht : t ∈ ts) (hNt : Names t.1 n) :
    Shows schema bound ts [n] l t.2 := by
  have hSame : t.2.tree = t.2 := isTree_of_mem hTree ht
  refine ⟨lastly ts t.1 [t], treeMembers_lastly hTree ht hSame [] (by simp),
    decodes_lastly hDecodes ?_ t.1, heightMembers_lastly hHeight ?_ t.1, ?_⟩
  · intro m hm
    rw [List.mem_singleton.mp hm]
    exact hDecodes t ht
  · apply Doc.heightMembers_le
    intro m hm
    rw [List.mem_singleton.mp hm]
    exact Doc.height_le_of_mem_members hHeight t ht
  · have hSome := hDecodes t ht
    rw [memberEvents_of_names hDistinct.1 hf hNt, shapeEvents, Option.isSome_map] at hSome
    rw [events, storesAt_leaf hDistinct.1 hf, lastly, flatMap_last
      (fun m : String × Doc => Names m.1 n) (fun m => (leafStores l m.2).getD []) hNt (by simp)]
    have hSettled := settledBy_append (hSame.symm ▸ hNull t ht) hSome
    rw [hSame] at hSettled
    exact hSettled _

omit hTree hHeight in
theorem exists_obj_of_record (hf : (n, Shape.record fields) ∈ schema) (ht : t ∈ ts)
    (hNt : Names t.1 n) : ∃ ks, t.2 = .obj ks ∧ ∀ k ∈ ks, (recordEvent [n] fields k).isSome := by
  obtain ⟨name, d⟩ := t
  have hSome := hDecodes _ ht
  cases d with
  | obj ks => exact ⟨ks, rfl, (isSome_memberEvents_record hDistinct.1 hf hNt ks).mp hSome⟩
  | null => exact absurd (hNull _ ht) (by simp [Doc.nullFree])
  | _ =>
      rw [memberEvents_of_names hDistinct.1 hf hNt] at hSome
      cases hSome

/-- Any member of a nested struct that stands for a field may come last. -/
theorem shows_record (hf : (n, Shape.record fields) ∈ schema) (hg : g ∈ fields) (ht : t ∈ ts)
    (hNt : Names t.1 n) {j : String × Doc} (hj : j ∈ t.2.members) (hNj : Names j.1 g.1) :
    Shows schema bound ts [n, g.1] g.2 j.2 := by
  have hFields : DistinctNames fields := hDistinct.2 _ hf
  obtain ⟨ks, hDoc, hks⟩ := exists_obj_of_record hDistinct hNull hDecodes hf ht hNt
  have hTreeT : (Doc.obj ks).IsTree := hDoc ▸ isTree_of_mem hTree ht
  have hNullT := hNull t ht
  rw [hDoc] at hj hNullT
  have hSame : j.2.tree = j.2 := isTree_of_mem hTreeT hj
  have hTreeJ : treeMembers (lastly ks j.1 [j]) [] = ks :=
    treeMembers_lastly hTreeT hj hSame [] (by simp)
  have hSubset : ∀ k ∈ lastly ks j.1 [j], k ∈ ks := by
    intro k hk
    rcases List.mem_append.mp hk with hk | hk
    · exact List.mem_of_mem_filter hk
    · rw [List.mem_singleton.mp hk]
      exact hj
  have hDecodesT : Decodes schema [(t.1, .obj (lastly ks j.1 [j]))] := by
    intro m hm
    rw [List.mem_singleton.mp hm]
    exact (isSome_memberEvents_record hDistinct.1 hf hNt _).mpr fun k hk => hks k (hSubset k hk)
  have hHeightT : Doc.heightMembers [(t.1, .obj (lastly ks j.1 [j]))] ≤ bound := by
    have hOld := Doc.height_le_of_mem_members hHeight t ht
    rw [hDoc, Doc.height] at hOld
    apply Doc.heightMembers_le
    intro m hm
    rw [List.mem_singleton.mp hm, Doc.height]
    have hNew : Doc.heightMembers (lastly ks j.1 [j]) ≤ Doc.heightMembers ks :=
      Doc.heightMembers_le fun k hk =>
        Doc.height_le_of_mem_members (Nat.le_refl _) k (hSubset k hk)
    omega
  have hAll := decodes_lastly hDecodes hDecodesT t.1
  have hNames : Names (t.1, Doc.obj (lastly ks j.1 [j])).1 n := hNt
  refine ⟨lastly ts t.1 [(t.1, .obj (lastly ks j.1 [j]))],
    treeMembers_lastly hTree ht (by rw [tree_obj, hTreeJ, hDoc]) [] (by simp), hAll,
    heightMembers_lastly hHeight hHeightT t.1, ?_⟩
  have hSome := hks j hj
  rw [recordEvent, hFields.fieldOf_eq_some_iff.mpr ⟨hg, hNj⟩, Option.isSome_map] at hSome
  rw [events, storesAt_record hDistinct.1 hf hFields hg hAll, lastly, flatMap_last
    (fun m : String × Doc => Names m.1 n) (fun m => m.2.members.flatMap fun k =>
      if Names k.1 g.1 then (leafStores g.2 k.2).getD [] else []) hNames (by simp), members_obj,
    lastly, flatMap_last (fun k : String × Doc => Names k.1 g.1)
    (fun k => (leafStores g.2 k.2).getD []) hNj (by simp), ← List.append_assoc]
  have hSettled := settledBy_append
    (hSame.symm ▸ (nullFreeMembers_iff ks).mp hNullT j hj) hSome
  rw [hSame] at hSettled
  exact hSettled _

omit hNull in
/-- A field that a nested struct does not name takes whatever an earlier member of
the same name holds. -/
theorem shows_sample (hBound : 2 ≤ bound) (hf : (n, Shape.record fields) ∈ schema)
    (hg : g ∈ fields) (ht : t ∈ ts) (hNt : Names t.1 n)
    (hMissing : ∀ k ∈ t.2.members, ¬ Names k.1 g.1) (b : Bool) :
    Shows schema bound ts [n, g.1] g.2 (sample g.2 b) := by
  have hFields : DistinctNames fields := hDistinct.2 _ hf
  have hTail : Decodes schema [(t.1, .obj [(g.1, sample g.2 b)]), t] := by
    intro m hm
    simp only [List.mem_cons, List.not_mem_nil, or_false] at hm
    rcases hm with rfl | rfl
    · apply (isSome_memberEvents_record hDistinct.1 hf hNt _).mpr
      intro k hk
      rw [List.mem_singleton.mp hk, recordEvent, hFields.fieldOf_eq_some_iff.mpr ⟨hg, rfl⟩,
        Option.isSome_map]
      exact isSome_leafStores_sample g.2 b
    · exact hDecodes m ht
  have hHeightT : Doc.heightMembers [(t.1, .obj [(g.1, sample g.2 b)]), t] ≤ bound := by
    have hOld := Doc.height_le_of_mem_members hHeight t ht
    have hSample := height_sample g.2 b
    simp only [Doc.heightMembers, Doc.height]
    omega
  have hAll := decodes_lastly hDecodes hTail t.1
  refine ⟨lastly ts t.1 [(t.1, .obj [(g.1, sample g.2 b)]), t],
    treeMembers_lastly hTree ht (isTree_of_mem hTree ht) [_] (by simp), hAll,
    heightMembers_lastly hHeight hHeightT t.1, ?_⟩
  have hNil : (t.2.members.flatMap fun k =>
      if Names k.1 g.1 then (leafStores g.2 k.2).getD [] else []) = [] :=
    List.flatMap_eq_nil_iff.mpr fun k hk => if_neg (hMissing k hk)
  have hNames : Names g.1 g.1 := rfl
  rw [events, storesAt_record hDistinct.1 hf hFields hg hAll, lastly, List.flatMap_append]
  simp only [List.flatMap_cons, List.flatMap_nil, if_pos hNt, hNil, members_obj, if_pos hNames,
    List.append_nil]
  have hSettled := settledBy_append (nullFree_sample g.2 b) (isSome_leafStores_sample g.2 b)
  rw [tree_sample] at hSettled
  exact hSettled _

/-- If all documents with the tree leave the same values, the tree is pinned. -/
theorem Uniform.pinned (hBound : 2 ≤ bound) (hUniform : Uniform schema bound ts) :
    Pinned schema ts := by
  rintro ⟨n, shape⟩ hf s hs hNs t ht hNt
  cases shape with
  | leaf l =>
      have hPath : ([n], l) ∈ leaves schema := List.mem_flatMap.mpr ⟨_, hf, by simp⟩
      apply hUniform.stores_eq hPath
      · exact shows_leaf hDistinct hTree hNull hDecodes hHeight hf hs hNs
      · exact shows_leaf hDistinct hTree hNull hDecodes hHeight hf ht hNt
  | record fields =>
      intro g hg
      have hPath : ([n, g.1], g.2) ∈ leaves schema :=
        List.mem_flatMap.mpr ⟨_, hf, List.mem_map.mpr ⟨g, hg, rfl⟩⟩
      refine ⟨?_, ?_⟩
      · by_contra hMissing
        simp only [not_exists, not_and] at hMissing
        have hShows := shows_sample hDistinct hTree hDecodes hHeight hBound hf hg hs hNs
          hMissing
        exact sample_ne g.2 (hUniform.stores_eq hPath (hShows true) (hShows false))
      · intro j hj hNj k hk hNk
        apply hUniform.stores_eq hPath
        · exact shows_record hDistinct hTree hNull hDecodes hHeight hf hg hs hNs hj hNj
        · exact shows_record hDistinct hTree hNull hDecodes hHeight hf hg ht hNt hk hNk

end Variants

/-- What decodes from a document decodes from its tree. -/
theorem decodes_tree (h : Decodes schema ms) : Decodes schema (treeMembers ms []) := by
  intro t ht
  rcases mem_treeMembers ht with ht | ⟨m, hm, rfl⟩
  · simp at ht
  · have hSome := h m hm
    unfold memberEvents at hSome ⊢
    cases hField : fieldOf schema m.1 with
    | none => rfl
    | some f =>
        simp only [hField] at hSome ⊢
        cases hShape : f.2 with
        | leaf l => simpa [shapeEvents, hShape, leafStores_tree] using hSome
        | record fields =>
            rw [hShape] at hSome
            cases hDoc : m.2 with
            | obj ns =>
                rw [hDoc, shapeEvents] at hSome
                obtain ⟨es, hes⟩ := Option.isSome_iff_exists.mp hSome
                rw [tree_obj, shapeEvents, Option.isSome_iff_exists]
                refine ⟨_, collect_eq_some_iff.mpr ⟨?_, rfl⟩⟩
                intro k hk
                rcases mem_treeMembers hk with hk | ⟨n, hn, rfl⟩
                · simp at hk
                · have hEvent := (collect_eq_some_iff.mp hes).1 n hn
                  unfold recordEvent at hEvent ⊢
                  cases hg : fieldOf fields n.1 with
                  | none => rfl
                  | some g => simpa [hg, leafStores_tree] using hEvent
            | null => rfl
            | _ =>
                rw [hDoc] at hSome
                cases hSome

end Json
