import DocGraph.Comment
import DocGraph.Interpretation
import DocGraph.Store.Basic
import DocGraph.Value.Display

/-! Intake: turning the entries of a symbol list into stored records.

    A file's own record comes before those of the symbols in it, which point to it. An entry that is
    refused may leave traces: an identity given out, a file known by it, problems reported. -/

namespace DocGraph

/-- How far the intake has come. -/
structure Intake where
  store : Store
  strict : Bool
  /-- The records of files by their paths, the latest first. -/
  modules : List (Value × Int)
  diagnostics : List Diagnostic
  logs : List Log.Entry

/-- Why an entry is refused. -/
inductive IntakeError where
  | notObject
  | unknownFields (names : List String)
  | noCategory
  | badContext
  | badTags
  | badTag
  | badComment
  | symbol (e : Symbol.Error)
  | interpret (e : InterpretError)
  | usedId (e : Store.UsedId)

/-- The refusal in words, when it has any. -/
def IntakeError.message : IntakeError → String
  | notObject => "symbol entries must be JSON objects"
  | unknownFields names => "Unknown symbol entry fields: " ++ Text.joined ", " names
  | noCategory => "symbol entries need a string 'category'"
  | badContext => "'context' must be a JSON object"
  | badTags => "'tags' must be a list"
  | badTag => "each tag needs a string 'tag_name'"
  | badComment => "'comment' must be a string or null"
  | symbol e => e.message
  | interpret e => e.message
  | usedId e => e.message

namespace Intake

/-- Nothing taken in yet. -/
def start (strict : Bool) : Intake := ⟨.empty, strict, [], [], []⟩

/-! ### Entries -/

/-- A well-formed entry. -/
structure Entry where
  category : String
  symbol : Symbol
  tags : List Tag

/-- The fields of an entry. -/
def entryFields : List String := ["category", "comment", "context", "tags"]

/-- A tag that was given as a dictionary. A value that is no text is written out. -/
def tagOf (v : Value) : Except IntakeError Tag :=
  match v.field? "tag_name" with
  | some (.str name) => .ok ⟨name, ((v.field? "tag_value").getD (.str "")).text⟩
  | _ => .error .badTag

/-- The tags of an entry that gives them itself. -/
def tagsOf : Value → Except IntakeError (Option (List Tag))
  | .null => .ok none
  | .list items => (items.mapM tagOf).map some
  | _ => .error .badTags

/-- The symbol of an entry. -/
def symbolOf : Value → Except IntakeError Symbol
  | .null => (Symbol.ofEntries []).mapError .symbol
  | .dict entries => (Symbol.ofEntries entries).mapError .symbol
  | _ => .error .badContext

/-- The comment of an entry. -/
def commentOf : Value → Except IntakeError (Option String)
  | .null => .ok none
  | .str s => .ok (some s)
  | _ => .error .badComment

/-- Reads an entry. Tags that it gives itself win over its comment. -/
def readEntry : Value → Except IntakeError Entry
  | .dict entries => do
    let unknown := (Value.textKeys entries).filter fun k => !entryFields.contains k
    if !unknown.isEmpty then throw (.unknownFields (Text.sorted unknown))
    let given name := (Value.lookup entries name).getD .null
    let .str category := given "category" | throw .noCategory
    let symbol ← symbolOf (given "context")
    let tags ← tagsOf (given "tags")
    let comment ← commentOf (given "comment")
    return ⟨category, symbol, tags.getD (Comment.tags comment)⟩
  | _ => .error .notObject

/-! ### Records -/

/-- The categories whose records stand for whole files. -/
def moduleCategories : List Category := [.file, .testFile, .memory]

/-- Whether a category's records stand for whole files. -/
def isModule (category : String) : Bool := (moduleCategories.map Category.name).contains category

/-- The latest record of the file at a path. -/
def moduleAt? (modules : List (Value × Int)) (path : Value) : Option Int :=
  (modules.find? fun m => m.1.same path).map Prod.snd

/-- Sets the record of the file at a path; it hides those before it. -/
def putModule (modules : List (Value × Int)) (path : Value) (id : Int) : List (Value × Int) :=
  (path, id) :: modules

variable [names : CharacterNames]

/-- Interprets a symbol, whose file can be looked up, and stores its record. The intake shows how
    far it came, also when it failed. -/
def createIn (c : Category) (files : Files.Tree) (i : Intake) (e : Entry) :
    Intake × Except IntakeError Record :=
  let (store, id) := i.store.reserve
  let path := e.symbol.filePath
  let modules := if isModule c.name then putModule i.modules path id else i.modules
  let moduleId := if isModule c.name then none else moduleAt? i.modules path
  let (draft, error) := Interpretation.interpretAs c i.strict ⟨e.tags, e.symbol, files, names⟩
    { id := id, category := c.name, moduleId := moduleId }
  let i := { i with
    store := store
    modules := modules
    diagnostics := i.diagnostics ++ draft.diagnostics
    logs := i.logs ++ draft.logs }
  match error with
  | some e => (i, .error (.interpret e))
  | none => match store.insert draft.record with
    | .error e => (i, .error (.usedId e))
    | .ok store =>
      let created : Log.Entry := ⟨.debug, .intake, "Created " ++ c.name ++ " record " ++
        Number.decimalText id ++ " (" ++ draft.record.longname.text ++ ")"⟩
      ({ i with store := store, logs := i.logs ++ [created] }, .ok draft.record)

/-- Interprets a symbol and stores its record. A symbol whose file cannot be looked up only takes an
    identity. -/
def createAs (c : Category) (files : Files.Tree) (i : Intake) (e : Entry) :
    Intake × Except IntakeError Record :=
  if e.symbol.filePath.hashable then createIn c files i e
  else ({ i with store := i.store.reserve.1 }, .error (.interpret (.failed .wrongType)))

/-- Takes in one entry. -/
def create (files : Files.Tree) (i : Intake) (v : Value) : Intake × Except IntakeError Record :=
  match readEntry v with
  | .error e => (i, .error e)
  | .ok entry => match Category.find? entry.category with
    | none => (i, .error (.interpret (.unknownCategory entry.category)))
    | some c => createAs c files i entry

/-- Takes in entries in order, up to the first that is refused. The files are those that there are
    when some entries have been logged. -/
def createAll (files : List Log.Entry → Files.Tree) (i : Intake) :
    List Value → Intake × Option IntakeError
  | [] => (i, none)
  | v :: vs => match create (files i.logs) i v with
    | (i, .error e) => (i, some e)
    | (i, .ok _) => createAll files i vs

end Intake

end DocGraph
