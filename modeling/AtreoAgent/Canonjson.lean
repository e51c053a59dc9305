import AtreoAgent.Json.Tree

/-! The canonical encoding that signatures are made over (package `canonjson`).
`marshalRaw` decodes a document into an untyped tree and writes the tree with
sorted names, no space and only the escapes JSON requires; `null` is refused. -/
namespace Canonjson

open Codec Json

inductive Error where
  /-- `canonjson: decode: …` -/
  | decode
  /-- `canonjson: trailing data after top-level value` -/
  | trailingData
  /-- `canonjson: null is forbidden in signed payloads` -/
  | nullForbidden
  deriving DecidableEq, Repr

/-- What `json.Encoder` writes for a string with HTML escaping off. -/
def encode (s : String) : Bytes := printString false s ++ [0x0a]

def writeString (s : String) : Bytes :=
  let out := encode s
  if out.getLast? = some 0x0a then out.dropLast else out

@[simp] theorem writeString_eq (s : String) : writeString s = printString false s := by
  simp [writeString, encode]

mutual

def writeValue : Doc → Except Error Bytes
  | .null => .error .nullForbidden
  | .bool true => .ok (utf8 "true")
  | .bool false => .ok (utf8 "false")
  | .str s => .ok (writeString s)
  | .num n => .ok n.lit
  | .arr items => do
      let out ← writeItems items
      .ok (0x5b :: (out ++ [0x5d]))
  | .obj members => do
      let out ← writeMembers members
      .ok (0x7b :: (out ++ [0x7d]))

def writeItems : List Doc → Except Error Bytes
  | [] => .ok []
  | [d] => writeValue d
  | d :: ds => do
      let first ← writeValue d
      let out ← writeItems ds
      .ok (first ++ 0x2c :: out)

/-- The entries of a map, in the order of their names. -/
def writeMembers : Members → Except Error Bytes
  | [] => .ok []
  | [m] => do
      let value ← writeValue m.2
      .ok (writeString m.1 ++ 0x3a :: value)
  | m :: ms => do
      let value ← writeValue m.2
      let out ← writeMembers ms
      .ok (writeString m.1 ++ 0x3a :: (value ++ 0x2c :: out))

end

/-- `Decoder.More`: something other than a closing bracket follows. -/
def more (rest : Bytes) : Bool :=
  match skipSpace rest with
  | [] => false
  | b :: _ => b != 0x5d && b != 0x7d

def marshalRaw (jsonBytes : Bytes) : Except Error Bytes :=
  match parse jsonBytes with
  | none => .error .decode
  | some (d, rest) => if more rest then .error .trailingData else writeValue d.tree

/-- `Marshal` of a value that `encoding/json` writes as the document `d`. -/
def marshal (d : Doc) : Except Error Bytes := marshalRaw (d.print true)

theorem writeItems_eq {items : List Doc}
    (h : ∀ d ∈ items, writeValue d =
      if d.nullFree then .ok (d.print false) else .error .nullForbidden) :
    writeItems items =
      if nullFreeItems items then .ok (printItems false items) else .error .nullForbidden := by
  induction items with
  | nil => rfl
  | cons d ds ih =>
      obtain ⟨hHead, hTail⟩ := List.forall_mem_cons.mp h
      have hRest := ih hTail
      cases ds with
      | nil => simpa [writeItems, printItems, nullFreeItems] using hHead
      | cons e es =>
          have hNull : nullFreeItems (d :: e :: es) = (d.nullFree && nullFreeItems (e :: es)) := by
            rw [nullFreeItems]
          rw [writeItems, hHead, hRest, hNull, printItems_cons_cons]
          · cases d.nullFree <;> cases nullFreeItems (e :: es) <;> rfl
          · simp

theorem writeMembers_eq {members : Members}
    (h : ∀ m ∈ members, writeValue m.2 =
      if m.2.nullFree then .ok (m.2.print false) else .error .nullForbidden) :
    writeMembers members =
      if nullFreeMembers members then .ok (printMembers false members)
      else .error .nullForbidden := by
  induction members with
  | nil => rfl
  | cons m ms ih =>
      obtain ⟨hHead, hTail⟩ := List.forall_mem_cons.mp h
      have hRest := ih hTail
      cases ms with
      | nil =>
          rw [writeMembers, hHead, nullFreeMembers, nullFreeMembers, printMembers, writeString_eq]
          cases m.2.nullFree <;> rfl
      | cons n ns =>
          have hNull : nullFreeMembers (m :: n :: ns) =
              (m.2.nullFree && nullFreeMembers (n :: ns)) := by
            rw [nullFreeMembers]
          rw [writeMembers, hHead, hRest, hNull, printMembers_cons_cons, writeString_eq]
          · cases m.2.nullFree <;> cases nullFreeMembers (n :: ns) <;> rfl
          · simp

/-- `writeValue` prints exactly the trees that hold no `null`. -/
theorem writeValue_eq (d : Doc) :
    writeValue d = if d.nullFree then .ok (d.print false) else .error .nullForbidden := by
  induction d using Doc.induct with
  | null => rfl
  | bool b => cases b <;> rfl
  | num n => rfl
  | str s => simp [writeValue, Doc.nullFree, Doc.print]
  | arr items ih =>
      rw [writeValue, writeItems_eq ih, Doc.nullFree, Doc.print]
      cases nullFreeItems items <;> rfl
  | obj members ih =>
      rw [writeValue, writeMembers_eq ih, Doc.nullFree, Doc.print]
      cases nullFreeMembers members <;> rfl

/-- What `marshalRaw` accepts, and what it then writes. -/
theorem marshalRaw_eq_ok_iff {p c : Bytes} :
    marshalRaw p = .ok c ↔ ∃ d rest, parse p = some (d, rest) ∧ more rest = false ∧
      d.tree.nullFree = true ∧ c = d.tree.print false := by
  unfold marshalRaw
  cases hParse : parse p with
  | none => simp
  | some r =>
      obtain ⟨d, rest⟩ := r
      simp only [Option.some.injEq, Prod.mk.injEq, writeValue_eq]
      cases hMore : more rest <;> cases hNull : d.tree.nullFree <;>
        simp [hMore, hNull, eq_comm]

/-- Documents with the same canonical bytes have the same tree. -/
theorem tree_eq_of_marshalRaw_eq {p q c : Bytes} {d e : Doc} {rest rest' : Bytes}
    (hp : marshalRaw p = .ok c) (hq : marshalRaw q = .ok c) (hParseP : parse p = some (d, rest))
    (hParseQ : parse q = some (e, rest')) : d.tree = e.tree := by
  obtain ⟨d', _, hd, -, -, hc⟩ := marshalRaw_eq_ok_iff.mp hp
  obtain ⟨e', _, he, -, -, hc'⟩ := marshalRaw_eq_ok_iff.mp hq
  obtain ⟨rfl, -⟩ := Prod.mk.inj (Option.some.inj (hParseP.symm.trans hd))
  obtain ⟨rfl, -⟩ := Prod.mk.inj (Option.some.inj (hParseQ.symm.trans he))
  have hHeight : ∀ {bs rest : Bytes} {f : Doc}, parse bs = some (f, rest) →
      f.tree.height ≤ maxNestingDepth := fun h =>
    Nat.le_trans (height_tree_le _) (height_le_of_parse_eq h)
  exact print_injective false (hHeight hd) (hHeight he) (hc.symm.trans hc')

/-- Printing a document and canonicalising the text gives the text of its tree. -/
theorem marshalRaw_print (html : Bool) {d : Doc} (hHeight : d.height ≤ maxNestingDepth)
    (hNull : d.tree.nullFree = true) :
    marshalRaw (d.print html) = .ok (d.tree.print false) := by
  have hParse := parse_print html hHeight stops_nil
  rw [List.append_nil] at hParse
  exact marshalRaw_eq_ok_iff.mpr ⟨d, [], hParse, rfl, hNull, rfl⟩

/-- What `Marshal` writes, for a document that is not nested too deeply. -/
theorem marshal_eq_ok {d : Doc} (hHeight : d.height ≤ maxNestingDepth) {c : Bytes}
    (h : marshal d = .ok c) : c = d.tree.print false := by
  have hParse := parse_print true hHeight stops_nil
  rw [List.append_nil] at hParse
  obtain ⟨d', _, hParse', -, -, hc⟩ := marshalRaw_eq_ok_iff.mp h
  obtain ⟨rfl, -⟩ := Prod.mk.inj (Option.some.inj (hParse.symm.trans hParse'))
  exact hc

/-- The canonical bytes of an object determine what is found under each name. -/
theorem lookup_eq_of_marshal_eq {ms ns : Members} {c : Bytes}
    (hMs : (Doc.obj ms).height ≤ maxNestingDepth) (hNs : (Doc.obj ns).height ≤ maxNestingDepth)
    (h : marshal (.obj ms) = .ok c) (h' : marshal (.obj ns) = .ok c) (k : String) :
    (findLast k ms).map Doc.tree = (findLast k ns).map Doc.tree := by
  have hPrint := (marshal_eq_ok hMs h).symm.trans (marshal_eq_ok hNs h')
  have hTree := print_injective false (Nat.le_trans (height_tree_le _) hMs)
    (Nat.le_trans (height_tree_le _) hNs) hPrint
  rw [tree_obj, tree_obj] at hTree
  have hFind := congrArg (find k) (Doc.obj.inj hTree)
  rwa [find_treeMembers, find_treeMembers, find, Option.or_none, Option.or_none] at hFind

end Canonjson
