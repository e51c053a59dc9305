import AtreoAgent.Tunnel.Payload
import AtreoAgent.Json.Determined

/-! What a signature over canonical bytes fixes. The handlers verify a payload
through the untyped tree and read it through a struct. The two readings agree on
every document with the signed bytes exactly when no field of the struct can be
reached by two members that differ, and every `app` object is complete. -/
namespace Tunnel

open Codec Json

/-- The entries of the tree `marshalRaw` writes. -/
def signedMembers (payload : Bytes) : Members :=
  match parse payload with
  | some (d, _) => d.tree.members
  | none => []

/-- The members of the signed tree leave no choice for any field of the struct. -/
def PayloadType.FieldsPinned (T : PayloadType) (payload : Bytes) : Prop :=
  Pinned T.schema (signedMembers payload)

instance (T : PayloadType) (payload : Bytes) : Decidable (T.FieldsPinned payload) :=
  inferInstanceAs (Decidable (Pinned _ _))

theorem PayloadType.distinct (T : PayloadType) : T.schema.Distinct := by
  cases T <;> decide +kernel

/-- Structs are equal when all their plain fields are. -/
theorem PayloadType.read_eq_iff (T : PayloadType) (es es' : List Event) :
    T.read es = T.read es' ↔ ∀ p ∈ leaves T.schema,
      p.2.final (storesAt p.1 es) = p.2.final (storesAt p.1 es') := by
  cases T <;>
    simp [PayloadType.read, PayloadType.schema, leaves, envelopeSchema, appFields, Leaf.final,
      readEnvelope, readApp, textAt, intAt, textsAt, and_assoc]

/-- A text that decodes into a struct and has canonical bytes is an object, without `null`
in its tree. -/
theorem unmarshal_eq_some {schema : Schema} {p c : Bytes} {es : List Event}
    (hMarshal : Canonjson.marshalRaw p = .ok c) (hDecode : Json.unmarshal schema p = some es) :
    ∃ ms rest, parse p = some (.obj ms, rest) ∧ Decodes schema ms ∧
      es = events schema ms ∧ (∀ t ∈ treeMembers ms [], t.2.nullFree = true) ∧
      c = (Doc.obj (treeMembers ms [])).print false := by
  obtain ⟨d, rest, hParse, -, hNull, rfl⟩ := Canonjson.marshalRaw_eq_ok_iff.mp hMarshal
  simp only [Json.unmarshal, parseWhole, hParse, Option.bind_some, Option.bind_eq_some_iff,
    Option.ite_none_right_eq_some, Option.some.injEq] at hDecode
  obtain ⟨_, ⟨-, rfl⟩, hStruct⟩ := hDecode
  cases d with
  | obj ms =>
      obtain ⟨hDecodes, rfl⟩ := decodeStruct_obj.mp hStruct
      rw [tree_obj] at hNull ⊢
      exact ⟨ms, rest, hParse, hDecodes, rfl, (nullFreeMembers_iff _).mp hNull, rfl⟩
  | null => simp [Doc.tree, Doc.nullFree] at hNull
  | _ => simp [decodeStruct] at hStruct

/-- Texts with the same canonical bytes, which pin the fields, leave the same value in every
field. -/
theorem final_eq_of_pinned {schema : Schema} (hDistinct : schema.Distinct) {p q c : Bytes}
    {es es' : List Event} (hPinned : Pinned schema (signedMembers p))
    (hMarshal : Canonjson.marshalRaw p = .ok c) (hDecode : Json.unmarshal schema p = some es)
    (hMarshalQ : Canonjson.marshalRaw q = .ok c) (hDecodeQ : Json.unmarshal schema q = some es') :
    ∀ f ∈ leaves schema, f.2.final (storesAt f.1 es') = f.2.final (storesAt f.1 es) := by
  obtain ⟨ms, rest, hParse, hDecodes, rfl, hNull, -⟩ := unmarshal_eq_some hMarshal hDecode
  obtain ⟨ns, rest', hParseQ, hDecodesQ, rfl, -, -⟩ := unmarshal_eq_some hMarshalQ hDecodeQ
  have hMembers : signedMembers p = treeMembers ms [] := by
    simp only [signedMembers, hParse, tree_obj, members_obj]
  rw [hMembers] at hPinned
  have hTree := Canonjson.tree_eq_of_marshalRaw_eq hMarshalQ hMarshal hParseQ hParse
  rw [tree_obj, tree_obj, Doc.obj.injEq] at hTree
  exact hPinned.final_eq hDistinct hNull hTree rfl hDecodesQ hDecodes

theorem PayloadType.unmarshal_eq_some {T : PayloadType} {p c : Bytes} {s : T.Struct}
    (hMarshal : Canonjson.marshalRaw p = .ok c) (hDecode : T.unmarshal p = some s) :
    ∃ ms rest, parse p = some (.obj ms, rest) ∧ Decodes T.schema ms ∧
      s = T.read (events T.schema ms) ∧ (∀ t ∈ treeMembers ms [], t.2.nullFree = true) ∧
      c = (Doc.obj (treeMembers ms [])).print false := by
  obtain ⟨es, hEvents, rfl⟩ := Option.map_eq_some_iff.mp hDecode
  obtain ⟨ms, rest, hParse, hDecodes, rfl, hRest⟩ := Tunnel.unmarshal_eq_some hMarshal hEvents
  exact ⟨ms, rest, hParse, hDecodes, rfl, hRest⟩

/-- Any object with a given tree can be sent in the place of another. -/
theorem PayloadType.unmarshal_print {T : PayloadType} {ms ts : Members} {c : Bytes}
    (hTree : treeMembers ms [] = ts) (hNull : ∀ t ∈ ts, t.2.nullFree = true)
    (hc : c = (Doc.obj ts).print false) (hDecodes : Decodes T.schema ms)
    (hHeight : Doc.heightMembers ms ≤ maxNestingDepth - 1) :
    Canonjson.marshalRaw ((Doc.obj ms).print false) = .ok c ∧
      T.unmarshal ((Doc.obj ms).print false) = some (T.read (events T.schema ms)) := by
  have hDeep : (Doc.obj ms).height ≤ maxNestingDepth := by
    rw [Doc.height]
    exact Nat.add_le_of_le_sub (by decide) hHeight
  have hSame : (Doc.obj ms).tree = .obj ts := by rw [tree_obj, hTree]
  refine ⟨?_, ?_⟩
  · rw [Canonjson.marshalRaw_print false hDeep, hSame, hc]
    rw [hSame, Doc.nullFree]
    exact (nullFreeMembers_iff ts).mpr hNull
  · simp only [PayloadType.unmarshal, Json.unmarshal, parseWhole_print false hDeep,
      Option.bind_some, decodeStruct_obj.mpr ⟨hDecodes, rfl⟩, Option.map_some]

/-- The canonical bytes of an accepted payload determine the struct that any payload
with these bytes decodes to exactly when they pin its fields. -/
theorem signed_bytes_determine_payload_iff (T : PayloadType) (p c : Bytes) (s : T.Struct)
    (hMarshal : Canonjson.marshalRaw p = .ok c) (hDecode : T.unmarshal p = some s) :
    (∀ q s', Canonjson.marshalRaw q = .ok c → T.unmarshal q = some s' → s' = s) ↔
      T.FieldsPinned p := by
  obtain ⟨ms, rest, hParse, hDecodes, rfl, hNull, hc⟩ :=
    PayloadType.unmarshal_eq_some hMarshal hDecode
  have hMembers : signedMembers p = treeMembers ms [] := by
    simp only [signedMembers, hParse, tree_obj, members_obj]
  have hHeight : Doc.heightMembers ms ≤ maxNestingDepth - 1 := by
    have hDeep := height_le_of_parse_eq hParse
    rw [Doc.height] at hDeep
    omega
  rw [PayloadType.FieldsPinned, hMembers]
  constructor
  · intro hAll
    have hTree : (Doc.obj (treeMembers ms [])).IsTree := by
      rw [← tree_obj]
      exact isTree_tree _
    have hHeightTree : Doc.heightMembers (treeMembers ms []) ≤ maxNestingDepth - 1 := by
      have hLess := height_tree_le (.obj ms)
      rw [tree_obj, Doc.height, Doc.height] at hLess
      omega
    apply Uniform.pinned T.distinct hTree hNull (decodes_tree hDecodes) hHeightTree (by decide)
    intro us vs hus hvs hDecodesU hDecodesV hHeightU hHeightV
    obtain ⟨hu, hu'⟩ := PayloadType.unmarshal_print (T := T) hus hNull hc hDecodesU hHeightU
    obtain ⟨hv, hv'⟩ := PayloadType.unmarshal_print (T := T) hvs hNull hc hDecodesV hHeightV
    exact (T.read_eq_iff _ _).mp ((hAll _ _ hu hu').trans (hAll _ _ hv hv').symm)
  · intro hPinned q s' hMarshalQ hDecodeQ
    obtain ⟨es', hEventsQ, rfl⟩ := Option.map_eq_some_iff.mp hDecodeQ
    obtain ⟨es, hEvents, hRead⟩ := Option.map_eq_some_iff.mp hDecode
    rw [← hRead, T.read_eq_iff]
    exact final_eq_of_pinned T.distinct (hMembers ▸ hPinned) hMarshal hEvents hMarshalQ hEventsQ

/-- A status envelope. -/
def sampleStatusText : Bytes :=
  utf8 "\x7b\"status\":\"suspended\",\"memberId\":\"m1\",\"deviceId\":\"d1\"\x7d"

/-- The canonical bytes of the status envelope. -/
def sampleStatusCanon : Bytes :=
  utf8 "\x7b\"deviceId\":\"d1\",\"memberId\":\"m1\",\"status\":\"suspended\"\x7d"

def sampleStatusPayload : MemberStatusPayload :=
  { intent := "", timestamp := 0, deviceID := "d1", memberID := "m1", status := "suspended",
    changedAt := "" }

/-- A status envelope with one member for each field is pinned. -/
theorem status_bytes_determine_payload :
    Canonjson.marshalRaw sampleStatusText = .ok sampleStatusCanon ∧
      PayloadType.memberStatus.unmarshal sampleStatusText = some sampleStatusPayload ∧
      ∀ q s', Canonjson.marshalRaw q = .ok sampleStatusCanon →
        PayloadType.memberStatus.unmarshal q = some s' → s' = sampleStatusPayload := by
  have hMarshal : Canonjson.marshalRaw sampleStatusText = .ok sampleStatusCanon := by
    decide +kernel
  have hDecode : PayloadType.memberStatus.unmarshal sampleStatusText = some sampleStatusPayload := by
    decide +kernel
  exact ⟨hMarshal, hDecode, (signed_bytes_determine_payload_iff .memberStatus sampleStatusText
    sampleStatusCanon sampleStatusPayload hMarshal hDecode).mpr (by decide +kernel)⟩

/-- A relay can put an `app` object of its own in front of the signed one. The
canonical bytes stay the same, and the fields the signed object leaves out are taken
from the other. -/
theorem repeated_app_changes_payload :
    let p := utf8 "\x7b\"app\":\x7b\"id\":\"a1\"\x7d\x7d"
    let q := utf8
      "\x7b\"app\":\x7b\"type\":\"port\",\"port\":22\x7d,\"app\":\x7b\"id\":\"a1\"\x7d\x7d"
    Canonjson.marshalRaw p = .ok p ∧ Canonjson.marshalRaw q = .ok p ∧
      (PayloadType.appUpserted.unmarshal p).map (fun s => (s.app.type, s.app.port)) =
        some ("", 0) ∧
      (PayloadType.appUpserted.unmarshal q).map (fun s => (s.app.type, s.app.port)) =
        some ("port", 22) := by
  decide +kernel

end Tunnel
