import DocGraph.Text.Basic

/-! Paths.

    A path is a list of names. Written out, it shows no empty names and no names for the directory
    it stands in; names for the directory above are kept, since what they mean depends on the files
    there are. -/

namespace DocGraph.Files

/-- A path. -/
structure Path where
  absolute : Bool
  names : List String
  deriving DecidableEq

namespace Path

/-- The names between the slashes of a text, without those that do not lead anywhere. -/
def namesIn (s : String) : List String :=
  ((Text.splitOn '/' s.toList).map String.ofList).filter fun n => n ≠ "" && n ≠ "."

/-- The path that a text denotes. -/
def ofText (s : String) : Path := ⟨Text.startsWith s "/", namesIn s⟩

/-- A path as it is shown. -/
def text (p : Path) : String :=
  if p.absolute then "/" ++ Text.joined "/" p.names
  else if p.names.isEmpty then "."
  else Text.joined "/" p.names

/-- The path of the directory that holds a path. -/
def parent (p : Path) : Path := { p with names := p.names.dropLast }

/-- The last name of a path. -/
def name (p : Path) : String := p.names.getLast?.getD ""

/-- The path of a name inside a directory. -/
def child (p : Path) (name : String) : Path := { p with names := p.names ++ [name] }

/-- Resolves the names for the directory above from left to right, starting at a directory given
    from the root. -/
def resolveFrom (here : List String) (names : List String) : List String :=
  names.foldl (fun place n => if n = ".." then place.dropLast else place ++ [n]) here

end Path

end DocGraph.Files
