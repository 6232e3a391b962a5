/-! Tags: the `@name value` pairs of a documentation comment. -/

namespace DocGraph

/-- One tag, in the order in which it stood in its comment. The name includes its `@`. -/
structure Tag where
  name : String
  value : String
  deriving DecidableEq, Inhabited

end DocGraph
