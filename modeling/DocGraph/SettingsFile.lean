import DocGraph.Files.Tree
import DocGraph.Number.Layout
import DocGraph.Resolution.Settings
import DocGraph.Yaml.Reader

/-! The settings file.

    Settings stand under one key of a mapping. What is missing there, or a missing file, leaves the
    usual settings. -/

namespace DocGraph

namespace SettingsFile

/-- The name of the file that is looked for in a directory. -/
def fileName : String := ".tagdoc.yml"

/-- The key that the settings stand under. -/
def settingsKey : String := "resolve"

/-- Why settings cannot be loaded. -/
inductive Error where
  | read (e : Files.ReadError)
  /-- The file of that name is malformed. -/
  | malformed (name : String)
  /-- A scalar stands for something that does not exist. -/
  | badScalar (e : Yaml.Error)
  | rootNotMapping
  | settingsNotMapping
  /-- A switch is no truth value. -/
  | notBoolean (key : String)
  /-- An integer is too long to be written as a text. -/
  | longInteger

/-- The refusal in words. -/
def Error.message : Error → String
  | read e => e.message
  | malformed name => "Failed to parse " ++ name ++ ": malformed text"
  | badScalar e => e.message
  | rootNotMapping => fileName ++ " must contain a mapping at the root"
  | settingsNotMapping => "'" ++ settingsKey ++ "' must be a mapping"
  | notBoolean key => "'" ++ settingsKey ++ "." ++ key ++ "' must be a boolean"
  | longInteger => Number.tooLongMessage

/-! ### Values -/

/-- The truth value of a datum: one itself, or a word for one. -/
def asBool? : Yaml.Datum → Option Bool
  | .bool b => some b
  | .str s =>
    let word := (Text.trimmed s).map Char.toLower
    if ["true", "yes", "1"].contains word then some true
    else if ["false", "no", "0"].contains word then some false
    else none
  | _ => none

/-- The text of a scalar in a list of texts; what is no such scalar has none. -/
def itemText? : Yaml.Datum → Except Error (Option String)
  | .str s => .ok (some s)
  | .bool b => .ok (some (if b then "True" else "False"))
  | .int n => if Number.isTooLong n then .error .longInteger else .ok (some (Number.decimalText n))
  | .float x => .ok (some (Number.floatText x))
  | _ => .ok none

/-- The texts that a datum lists: a text alone lists itself, and what is no list has none. -/
def asTexts : Yaml.Datum → Except Error (List String)
  | .str s => .ok [s]
  | .list items => (items.mapM itemText?).map fun texts => texts.filterMap fun t => t
  | _ => .ok []

/-- A switch, or its usual value when it is missing. -/
def flag (entries : List (Yaml.Datum × Yaml.Datum)) (key : String) (usual : Bool) :
    Except Error Bool :=
  match Yaml.lookup entries key with
  | none => .ok usual
  | some d => match asBool? d with
    | some b => .ok b
    | none => .error (.notBoolean key)

/-- The settings that entries describe. -/
def ofEntries (entries : List (Yaml.Datum × Yaml.Datum)) : Except Error Settings := do
  let usual : Settings := {}
  return {
    access := ← ((Yaml.lookup entries "access").map asTexts).getD (.ok usual.access)
    autoPrivate := ← flag entries "auto_private" usual.autoPrivate
    keepUnexported := ← flag entries "keep_unexported" usual.keepUnexported
    keepUndocumented := ← flag entries "keep_undocumented" usual.keepUndocumented
    removeCommonPath := ← flag entries "remove_common_path" usual.removeCommonPath
    strict := ← flag entries "strict" usual.strict }

/-- The settings that the data of a file describe. -/
def ofDatum : Yaml.Datum → Except Error Settings
  | .null => .ok {}
  | .mapping entries => match Yaml.lookup entries settingsKey with
    | none => .ok {}
    | some .null => .ok {}
    | some (.mapping settings) => ofEntries settings
    | some _ => .error .settingsNotMapping
  | _ => .error .rootNotMapping

/-- The settings in the text of a file of a name. -/
def ofText (name text : String) : Except Error Settings :=
  if (Text.trimmed text).isEmpty then .ok {}
  else match Yaml.read text with
    | .ok d => ofDatum d
    | .error .malformed => .error (.malformed name)
    | .error e => .error (.badScalar e)

/-! ### Files -/

/-- Settings, and the directory of their file from the root. -/
structure Loaded where
  root : List String
  settings : Settings

/-- The names of the settings file for a path: the path itself, or a file in the directory it leads
    to. -/
def locate (files : Files.Tree) (path : Files.Path) : Except Error (List String) :=
  let names := files.resolve path
  if Files.hasNull path.text then .error (.read (.file (.nullCharacter .resolving)))
  else match files.locate path with
    | .error .nameTooLong => .error (.read (.file (.trouble .nameTooLong path.text)))
    | _ => .ok (if files.find? path = some .directory then names ++ [fileName] else names)

/-- Loads the settings for a path. -/
def load (files : Files.Tree) (path : Files.Path) : Except Error Loaded := do
  let names ← locate files path
  let loaded (settings : Settings) : Loaded := ⟨names.dropLast, settings⟩
  match files.textAt? names with
  | none => return loaded {}
  | some (.error e) => throw (.read e)
  | some (.ok text) => return loaded (← ofText (names.getLastD "") text)

end SettingsFile

end DocGraph
