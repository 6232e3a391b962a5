import DocGraph.Rule.Shared

/-! The rules of single categories. -/

namespace DocGraph.Rule

/-! ### What a module declares -/

/-- Takes over whether the symbol is exported. -/
def exportRule : DocRule := .assign [] fun s r =>
  { r with exported := .bool s.symbol.exported.truthy }

/-- Takes over the path that the symbol is imported from. -/
def importPathRule : DocRule := .assign [] fun s r => { r with importPath := s.symbol.importPath }

/-- Takes over how the symbol is imported, if it has a name. -/
def importStyleRule : DocRule := .assign ["name"] fun s r =>
  { r with importStyle := if r.name.truthy then s.symbol.importStyle else .null }

/-! ### Classes -/

/-- The file that a symbol's source is read from. -/
def sourceOf (s : Symbol) : Value := if s.absPath.truthy then s.absPath else s.filePath

/-- Sets the superclass written at a place of a file. -/
def readParent (s : Scope) (d : Draft) (source line start stop : Value) : Draft × Option Failure :=
  match source with
  | .str path =>
    match Selection.read s.files (Files.Path.ofText path).text line start stop with
    | .error e => (d, some (.selection e))
    | .ok text =>
      let parent := Text.trimmed text
      if parent.isEmpty then (d, none)
      else ({ d with record := { d.record with parents := some [parent] } }, none)
  | _ => (d, some .wrongType)

/-- Sets the superclass written at a location of the symbol's source. -/
def selectParent (s : Scope) (d : Draft) (location : List Value) : Draft × Option Failure :=
  if (sourceOf s.symbol).isNull then
    (d.log .warning ("Cannot read superclass of " ++ d.record.name.text ++
      " without a file path"), none)
  else match location with
    | [line, start, stop] => readParent s d (sourceOf s.symbol) line start stop
    | items => (d, some (.badLocation items.length))

/-- A record that extends a given superclass. -/
def withParent (parent : Value) (r : Record) : Record :=
  match parent with
  | .str name => { r with parents := some [name] }
  | other => r.setBeside "extends" (.list [other])

/-- Sets what a class extends: what its tags name, else the superclass that is known, else the one
    that is written in the source. -/
def extendsRule : DocRule :=
  ⟨[], fun s d =>
    match nonEmpty (references (s.findAll ["@extends", "@extend"])) with
    | some names => ({ d with record := { d.record with parents := some names } }, none)
    | none =>
      if s.symbol.superclass.truthy then
        ({ d with record := withParent s.symbol.superclass d.record }, none)
      else match s.symbol.superclassLocation with
        | none => (d, none)
        | some [] => (d, none)
        | some location => selectParent s d location⟩

/-- Sets what a class implements. -/
def implementsRule : DocRule := .assign [] fun s r =>
  { r with interfaces := nonEmpty (references (s.findAll ["@implements", "@implement"])) }

/-- A class is an interface when its last such tag is empty or says so. -/
def interfaceRule : DocRule := .assign [] fun s r =>
  { r with isInterface := some (match s.find? ["@interface"] with
    | some tag => tag.value = "" || tag.value = "true"
    | none => false) }

/-! ### Files and code in memory -/

/-- The name of code in memory. -/
def memoryName : String := "In memory code"

/-- A file's name is its path. -/
def fileNameRule : DocRule := .assign [] fun s r => { r with name := s.symbol.filePath }

/-- The long name is the name. -/
def nameAsLongnameRule : DocRule := .assign ["name"] fun _ r => { r with longname := r.name }

/-- The symbol is a member of nothing. -/
def noMemberofRule : DocRule := .assign [] fun _ r => { r with memberof := .null }

/-- All code in memory has one name. -/
def memoryNameRule : DocRule := .assign [] fun _ r => { r with name := .str memoryName }

/-! ### Type definitions and externals -/

/-- A type and a name. -/
def typeAndName : Descriptor.Wanted := ⟨true, true, false⟩

/-- The name of a type definition is the name in the last of its tags that has one. -/
def typedefNameRule : DocRule :=
  ⟨[], fun s d =>
    let tags := s.findAll ["@typedef"]
    if tags.isEmpty then
      (d.log .warning ("Cannot resolve typedef name for record " ++
        Number.decimalText d.record.id), none)
    else
      let c := collect (readClauses typeAndName) tags
      let d := d.reportAll s c.refused
      let name := c.found.getLast?.bind fun x => x.nameText
      ({ d with record := { d.record with name := .ofText? name } }, none)⟩

/-- Sets the defined type, without the marks of its type. -/
def typedefRule : DocRule :=
  .reading ["@typedef"] typeAndName fun d r => match d with
    | some d => { r with typedef := some { d with nullable := none, spread := false } }
    | none => r

/-- Sets the name and the link that one tag of an external gives. -/
def applyExternal (r : Record) (tag : Tag) : Record :=
  match Text.trim tag.value.toList with
  | [] => r
  | '\x7b' :: rest =>
    let (type, after) := Descriptor.splitType ('\x7b' :: rest)
    { r with
      name := .str type
      externalLink := Record.filled (some (String.ofList (Descriptor.descriptionClause after))) }
  | value =>
    let (name, link) := Text.cut ' ' value
    { r with
      name := .str (String.ofList name)
      externalLink := link.bind fun l => Record.filled (some (String.ofList (Text.trim l))) }

/-- Sets the name and the link of an external; each of its tags overrides those before. -/
def externalNameRule : DocRule :=
  ⟨[], fun s d =>
    let tags := s.findAll ["@external"]
    if tags.isEmpty then
      (d.log .warning ("Cannot resolve external name for record " ++
        Number.decimalText d.record.id), none)
    else ({ d with record := tags.foldl applyExternal d.record }, none)⟩

/-! ### Methods -/

/-- Takes over the symbol's qualifier; a method without one is a plain method. -/
def methodQualifierRule : DocRule := .assign [] fun s r =>
  { r with qualifier := if s.symbol.qualifier.truthy then s.symbol.qualifier else .str "method" }

/-! ### Tests -/

/-- Takes over the name and the number of a test. -/
def testNameRule : DocRule := .assign [] fun s r =>
  { r with name := s.symbol.testName, testId := s.symbol.testId }

/-- A test is a member of its owner, or else of its file. -/
def testMemberofRule : DocRule := .assign ["file_path"] fun s r =>
  { r with memberof := if s.symbol.owner.truthy then s.symbol.owner else r.filePath }

/-- Sets what a test is about. -/
def testTargetsRule : DocRule := .assign [] fun s r =>
  { r with testTargets := nonEmpty (references (s.findAll ["@test", "@testTarget"])) }

end DocGraph.Rule
