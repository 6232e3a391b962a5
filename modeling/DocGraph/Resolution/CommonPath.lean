import DocGraph.Record.Basic
import DocGraph.Text.Basic

/-! The directory that all files share, and dropping it from names. -/

namespace DocGraph

namespace CommonPath

/-- The directory of a path: what stands before its last slash, without slashes at the end unless
    there is nothing else. -/
def directory (path : String) : String :=
  let head := path.toList.reverse.dropWhile (· != '/')
  match head.dropWhile (· == '/') with
  | [] => String.ofList head.reverse
  | rest => String.ofList rest.reverse

/-- The names along the directory of a path. -/
def directoryNames (path : String) : List String :=
  (Text.splitOn '/' (directory path).toList).map String.ofList

/-- The longest head that two lists share. -/
def sharedHead : List String → List String → List String
  | a :: as, b :: bs => if a = b then a :: sharedHead as bs else []
  | _, _ => []

/-- The longest head that all lists share. -/
def sharedHeads : List (List String) → List String
  | [] => []
  | names :: more => more.foldl sharedHead names

/-- The directories that all paths share, up to the first without a name. -/
def sharedNames (paths : List String) : List String :=
  (sharedHeads (paths.map directoryNames)).takeWhile fun n => !n.isEmpty

/-- The directory that all paths share, with a slash at its end; empty when there is none. -/
def commonDirectory (paths : List String) : String :=
  match sharedNames paths with
  | [] => ""
  | names => Text.joined "/" names ++ "/"

/-- Drops `head` from the front of a name. -/
def strip (head name : String) : String :=
  if Text.startsWith name head then Text.dropChars name head.length else name

/-- The file of a record whose names hold paths: code in memory and externals have none. -/
def pathOf (r : Record) : Option String :=
  if r.kind = some "memory" ∨ r.kind = some "external" then none
  else Record.filledText r.filePath

/-- Drops `head` from the front of a value that is a text. -/
def stripValue (head : String) : Value → Value
  | .str s => .str (strip head s)
  | v => v

/-- Drops `head` from the names in a record. -/
def stripRecord (head : String) (r : Record) : Record :=
  { r with
    longname := stripValue head r.longname
    memberof := stripValue head r.memberof
    name := stripValue head r.name
    parents := r.parents.map fun names => names.map (strip head)
    interfaces := r.interfaces.map fun names => names.map (strip head)
    testTargets := r.testTargets.map fun names => names.map (strip head) }

/-- The directory that the files of all records share. -/
def common (records : List Record) : String := commonDirectory (records.filterMap pathOf)

/-- Drops the shared directory from the names in all records that have a file. -/
def remove (records : List Record) : List Record :=
  let head := common records
  if head.isEmpty then records
  else records.map fun r => if (pathOf r).isSome then stripRecord head r else r

end CommonPath

end DocGraph
