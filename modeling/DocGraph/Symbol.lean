import DocGraph.Named
import DocGraph.Text.Basic
import DocGraph.Value.Basic

/-! Symbols: what is known of a documented thing besides its comment.

    Nothing but the names of its facts is checked: a fact is what was given, of whatever kind. -/

namespace DocGraph

/-- What a walk over the sources found out about a symbol, as it was given. -/
structure Symbol where
  filePath : Value
  absPath : Value
  importPath : Value
  importStyle : Value
  name : Value
  owner : Value
  static : Value
  exported : Value
  qualifier : Value
  isAsync : Value
  generator : Value
  superclass : Value
  /-- Where the superclass is written: a line and two columns. -/
  superclassLocation : Option (List Value)
  testName : Value
  testId : Value
  lineNumber : Value
  decorators : Value
  content : Value

namespace Symbol

/-- Why a dictionary describes no symbol. -/
inductive Error where
  | unknownFields (names : List String)
  | wrongType
  deriving DecidableEq

/-- The fields of a symbol and their values when they are missing. -/
def defaults : Named Value :=
  [("file_path", .null), ("abs_path", .null), ("import_path", .null), ("import_style", .null),
    ("name", .null), ("owner", .null), ("static", .null), ("export", .bool false),
    ("qualifier", .null), ("is_async", .bool false), ("generator", .bool false),
    ("superclass", .null), ("superclass_location", .null), ("test_name", .null),
    ("test_id", .null), ("line_number", .null), ("decorators", .list []), ("content", .null)]

/-- The field of the superclass's location. -/
def locationField : String := "superclass_location"

/-- All fields of the symbol that a dictionary describes. A location becomes the tuple of its
    items. -/
def fields (data : List (Value × Value)) : Except Error (Named Value) :=
  let unknown := (Value.textKeys data).filter fun k => !defaults.names.contains k
  if unknown.isEmpty then
    let given := defaults.map fun d => (d.1, (Value.lookup data d.1).getD d.2)
    match (Value.lookup data locationField).getD .null with
    | .null => .ok given
    | location => match location.items? with
      | none => .error .wrongType
      | some items =>
        .ok (given.map fun f => if f.1 = locationField then (f.1, .tuple items) else f)
  else .error (.unknownFields (Text.sorted unknown))

/-- A field of the list. -/
def value (fields : Named Value) (name : String) : Value :=
  (fields.get? name).getD .null

/-- The symbol with the given fields. -/
def ofFields (fs : Named Value) : Symbol where
  filePath := value fs "file_path"
  absPath := value fs "abs_path"
  importPath := value fs "import_path"
  importStyle := value fs "import_style"
  name := value fs "name"
  owner := value fs "owner"
  static := value fs "static"
  exported := value fs "export"
  qualifier := value fs "qualifier"
  isAsync := value fs "is_async"
  generator := value fs "generator"
  superclass := value fs "superclass"
  superclassLocation := match value fs locationField with
    | .tuple items => some items
    | _ => none
  testName := value fs "test_name"
  testId := value fs "test_id"
  lineNumber := value fs "line_number"
  decorators := value fs "decorators"
  content := value fs "content"

/-- The symbol that a dictionary describes. -/
def ofEntries (data : List (Value × Value)) : Except Error Symbol := (fields data).map ofFields

/-- A symbol of which nothing is known but its file. -/
def ofFile (path : Value) : Symbol :=
  ofFields (defaults.map fun d => if d.1 = "file_path" then (d.1, path) else d)

/-- The refusal in words, when it has any. -/
def Error.message : Error → String
  | unknownFields names => "Unknown symbol context fields: " ++ Text.joined ", " names
  | wrongType => "a field has the wrong type"

end Symbol

end DocGraph
