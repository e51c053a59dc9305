import AtreoAgent.Canonjson
import AtreoAgent.Json.Determined
import AtreoAgent.Machine.Fallible

/-! The requests the agent signs for the coordination service (`keys.go`). The signed
document carries the device, an intent that starts with the command, and the time; a
request may add the entries of a body, but not under these three names. -/
namespace Crypto

open Codec Json Fallible

inductive AuthError where
  /-- `decode body to map: …` -/
  | decodeBody
  /-- `SignAgentAuth: body cannot use reserved key …` -/
  | reservedKey (key : String)
  /-- `canonjson marshal payload: …` -/
  | canonjson (e : Canonjson.Error)
  deriving DecidableEq, Repr

def reservedAuthPayloadKeys : List String := ["deviceId", "intent", "ts"]

/-- The entries a body adds. The body is given as the document `encoding/json` writes for
it; one that is written as `null` adds none. -/
def bodyMap : Option Doc → Except AuthError Members
  | none => .ok []
  | some body =>
      if body.print true = utf8 "null" then .ok []
      else
        match parse (body.print true) with
        | some (.obj members, _) => .ok (treeMembers members [])
        | _ => .error .decodeBody

def authIntent (intentPrefix deviceID : String) (ts : Int) : String :=
  intentPrefix ++ "-" ++ deviceID ++ "-" ++ toString ts

/-- What every request carries. -/
def authEntries (deviceID intent : String) (ts : Int) : Members :=
  [("deviceId", .str deviceID), ("intent", .str intent), ("ts", .num (Number.ofInt ts))]

/-- The bytes `SignAgentAuth` signs. Of several reserved names in a body the first in order
is reported here; the source reports any. -/
def signAgentAuth (deviceID intentPrefix : String) (ts : Int) (body : Option Doc) :
    Except AuthError Bytes := do
  let added ← bodyMap body
  match added.find? (·.1 ∈ reservedAuthPayloadKeys) with
  | some m => .error (.reservedKey m.1)
  | none =>
      (Canonjson.marshal (.obj (authEntries deviceID (authIntent intentPrefix deviceID ts) ts ++
        added))).mapError .canonjson

/-- The bytes `SignWSConnectAuth` signs. -/
def signWSConnectAuth (deviceID : String) (ts : Int) : Except Canonjson.Error Bytes :=
  Canonjson.marshal (.obj (authEntries deviceID (authIntent "tunnel:connect" deviceID ts) ts))

theorem height_bodyMap {body : Option Doc} {added : Members} (h : bodyMap body = .ok added) :
    (Doc.obj added).height ≤ maxNestingDepth := by
  unfold bodyMap at h
  split at h
  · cases h
    decide
  · split at h
    · cases h
      decide
    · split at h
      next members _ hParse =>
        cases h
        rw [← tree_obj]
        exact Nat.le_trans (height_tree_le _) (height_le_of_parse_eq hParse)
      · cases h

/-- A request that is signed holds the entries of every request, whatever its body. -/
theorem signAgentAuth_eq_ok {deviceID intentPrefix : String} {ts : Int} {body : Option Doc}
    {c : Bytes} (h : signAgentAuth deviceID intentPrefix ts body = .ok c) :
    ∃ ms, (Doc.obj ms).height ≤ maxNestingDepth ∧ Canonjson.marshal (.obj ms) = .ok c ∧
      ∀ k ∈ reservedAuthPayloadKeys, findLast k ms =
        findLast k (authEntries deviceID (authIntent intentPrefix deviceID ts) ts) := by
  obtain ⟨added, hAdded, h⟩ := bind_eq_ok.mp h
  have hHeight := height_bodyMap hAdded
  split at h
  · cases h
  next hFree =>
    refine ⟨_, ?_, mapError_eq_ok.mp h, ?_⟩
    · rw [Doc.height] at hHeight ⊢
      refine Nat.add_le_of_le_sub (by decide) (Doc.heightMembers_le ?_)
      intro m hm
      rcases List.mem_append.mp hm with hm | hm
      · have hFlat : ∀ m ∈ authEntries deviceID (authIntent intentPrefix deviceID ts) ts,
            m.2.height = 0 := by
          simp [authEntries, Doc.height]
        rw [hFlat m hm]
        exact Nat.zero_le _
      · exact Doc.height_le_of_mem_members (Nat.le_sub_of_add_le hHeight) m hm
    · intro k hk
      have hNone : findLast k added = none := by
        apply findLast_eq_none
        rintro m hm rfl
        exact absurd hk (by simpa using List.find?_eq_none.mp hFree m hm)
      rw [findLast_append, hNone, Option.none_or]

end Crypto
