import AtreoAgent.Canonjson
import AtreoAgent.Json.Same

/-! The canonical encoding is a normal form: it is the same for two texts exactly if they
decode to the same tree, and it is left alone by a further pass. -/
namespace Canonjson

open Codec Json

/-- The first values of the two texts decode to the same tree. -/
def SameTree (p q : Bytes) : Prop :=
  ∃ d e rest rest', parse p = some (d, rest) ∧ parse q = some (e, rest') ∧ d.Same e

/-- Texts that are accepted have the same canonical bytes exactly if they decode to the
same tree. The canonical bytes decode to the tree of the text they are of, and are their
own canonical bytes. -/
theorem canonical_bytes_normal_form {p q c c' : Bytes} (hp : marshalRaw p = .ok c)
    (hq : marshalRaw q = .ok c') :
    (c = c' ↔ SameTree p q) ∧ SameTree p c ∧ marshalRaw c = .ok c := by
  obtain ⟨d, rest, hd, hMore, hNull, hc⟩ := marshalRaw_eq_ok_iff.mp hp
  obtain ⟨e, rest', he, _, _, hc'⟩ := marshalRaw_eq_ok_iff.mp hq
  have hHeight : d.tree.height ≤ maxNestingDepth :=
    Nat.le_trans (height_tree_le d) (height_le_of_parse_eq hd)
  refine ⟨⟨fun hSame => ?_, ?_⟩, ?_, ?_⟩
  · rw [← hSame] at hq
    exact ⟨d, e, rest, rest', hd, he, same_of_tree_eq (tree_eq_of_marshalRaw_eq hp hq hd he)⟩
  · rintro ⟨d', e', _, _, hd', he', hTree⟩
    cases hd.symm.trans hd'
    cases he.symm.trans he'
    rw [hc, hc', hTree.tree_eq]
  · -- The text of a tree is read back as that tree.
    have hParse := parse_print false hHeight stops_nil
    rw [List.append_nil, ← hc] at hParse
    exact ⟨d, d.tree, rest, [], hd, hParse, same_of_tree_eq (isTree_tree d).symm⟩
  · have hPrint := marshalRaw_print false hHeight (by rw [isTree_tree d]; exact hNull)
    rwa [isTree_tree d, ← hc] at hPrint

/-- A text with a repeated name. -/
def repeatedName : Bytes := utf8 "\x7b\"b\":1,\"a\":[\"x\"],\"b\":true\x7d"

/-- The same tree with white space, another order of the names and an escape. -/
def reordered : Bytes := utf8 " \x7b\"a\":[\"\\u0078\"], \"b\":true\x7d"

theorem repeated_name_normal_form :
    marshalRaw reordered = marshalRaw repeatedName ∧ SameTree repeatedName reordered ∧
      ∃ c, marshalRaw repeatedName = .ok c ∧ marshalRaw c = .ok c := by
  have hFirst : marshalRaw repeatedName = .ok (utf8 "\x7b\"a\":[\"x\"],\"b\":true\x7d") := by
    decide +kernel
  have hSecond : marshalRaw reordered = .ok (utf8 "\x7b\"a\":[\"x\"],\"b\":true\x7d") := by
    decide +kernel
  obtain ⟨hIff, _, hFixed⟩ := canonical_bytes_normal_form hFirst hSecond
  exact ⟨hSecond.trans hFirst.symm, hIff.mp rfl, _, hFirst, hFixed⟩

end Canonjson
