import StrictLambda.Name

/-!
# Source spans

Every term, and every instruction made from it, remembers the stretch of source text it came from.
-/

namespace StrictLambda

/-- A stretch of the named source, from offset `start` up to but not including `stop`. -/
structure Span where
  source : Symbol
  start : Nat
  stop : Nat
deriving DecidableEq

end StrictLambda
