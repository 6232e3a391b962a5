/-! What resolution is to do. -/

namespace DocGraph

/-- The choices of a user. -/
structure Settings where
  /-- The kinds of access whose records are kept. -/
  access : List String := ["public", "protected", "private"]
  /-- Whether a name with an underscore at its head is private unless it says otherwise. -/
  autoPrivate : Bool := true
  keepUnexported : Bool := false
  keepUndocumented : Bool := true
  /-- Whether the directory that all files share is dropped from names. -/
  removeCommonPath : Bool := false
  /-- Whether a missing rule is an error. -/
  strict : Bool := false
  deriving DecidableEq

end DocGraph
