import DocGraph.Descriptor.Refine
import DocGraph.Diagnostic
import DocGraph.Log
import DocGraph.Record.Attribute
import DocGraph.Rule.Evaluator
import DocGraph.Selection
import DocGraph.Symbol

/-! Records in the making.

    A documentation rule reads its scope (the tags, the symbol, the files around it and the names of
    characters) and changes a draft: the record under construction, with the problems found and the
    log entries written on the way. -/

namespace DocGraph.Rule

/-- What a rule can read. -/
structure Scope where
  tags : List Tag
  symbol : Symbol
  files : Files.Tree
  charNames : CharacterNames

/-- A record under construction. -/
structure Draft where
  record : Record
  diagnostics : List Diagnostic
  logs : List Log.Entry

/-- Why a rule fails. Malformed tags are no failure: they are reported and passed over. -/
inductive Failure where
  /-- A number in a default is too large. -/
  | overflow
  /-- A value is of a kind that a rule cannot use. -/
  | wrongType
  /-- A location does not hold a line and two columns. -/
  | badLocation (items : Nat)
  /-- The text at a location cannot be read. -/
  | selection (e : Selection.Error)

/-- A documentation rule. -/
structure DocRule where
  needs : List String
  effect : Scope → Draft → Draft × Option Failure

/-- A documentation rule in a scope. -/
def DocRule.inScope (rule : DocRule) (scope : Scope) : Rule Draft Failure :=
  ⟨rule.needs, rule.effect scope⟩

/-- A rule that changes the record only, and cannot fail. -/
def DocRule.assign (needs : List String) (f : Scope → Record → Record) : DocRule :=
  ⟨needs, fun s d => ({ d with record := f s d.record }, none)⟩

/-! ### Tags -/

/-- The tags with one of the given names, in order. -/
def Scope.findAll (s : Scope) (names : List String) : List Tag :=
  s.tags.filter fun t => names.contains t.name

/-- The last tag with one of the given names. -/
def Scope.find? (s : Scope) (names : List String) : Option Tag := (s.findAll names).getLast?

/-- The values of the tags with one of the given names, in order. -/
def Scope.values (s : Scope) (names : List String) : List String :=
  (s.findAll names).map Tag.value

/-! ### Reports -/

/-- The file that a problem of the draft is reported for. -/
def Draft.reportPath (d : Draft) (s : Scope) : Value :=
  if d.record.filePath.truthy then d.record.filePath else s.symbol.filePath

/-- Reports a problem with a tag. -/
def Draft.report (d : Draft) (s : Scope) (tag : Tag) (message : String) : Draft :=
  let path := d.reportPath s
  { d with
    diagnostics := d.diagnostics ++ [⟨d.record.id, path, tag.name, tag.value, message⟩]
    logs := d.logs ++ [⟨.debug, .rules, "Skipping " ++ tag.name ++ " on record " ++
      Number.decimalText d.record.id ++ " (" ++ path.text ++ "): " ++ message⟩] }

/-- Reports problems in order. -/
def Draft.reportAll (d : Draft) (s : Scope) (problems : List (Tag × String)) : Draft :=
  problems.foldl (fun d p => d.report s p.1 p.2) d

/-- Writes a log entry of the rules. -/
def Draft.log (d : Draft) (level : Log.Level) (message : String) : Draft :=
  { d with logs := d.logs ++ [⟨level, .rules, message⟩] }

/-- What passing over a missing rule leaves behind. -/
def Draft.skip (d : Draft) (name : String) : Draft :=
  d.log .debug ("Rule '" ++ name ++ "' not declared for category '" ++ d.record.category ++
    "'; skipping")

/-! ### Reading tags -/

/-- What reading one tag gives: a result, a problem to report, or a number that is too large. -/
inductive Reading (α : Type) where
  | found (a : α)
  | refused (message : String)
  | overflow

/-- What reading tags in order gives: the results, the problems, and whether a number that is too
    large ended it. -/
structure Collected (α : Type) where
  found : List α
  refused : List (Tag × String)
  overflow : Bool

/-- Reads tags in order. -/
def collect {α : Type} (read : Tag → Reading α) : List Tag → Collected α
  | [] => ⟨[], [], false⟩
  | t :: ts => match read t with
    | .found a => let c := collect read ts; { c with found := a :: c.found }
    | .refused m => let c := collect read ts; { c with refused := (t, m) :: c.refused }
    | .overflow => ⟨[], [], true⟩

/-- The outcome of refining, as the outcome of reading a tag. -/
def ofRefined : Except Descriptor.Fault Descriptor → Reading Descriptor
  | .ok d => .found d
  | .error (.malformed m) => .refused m.message
  | .error .overflow => .overflow

/-- Reads a tag's value as a descriptor. -/
def readDescriptor (wanted : Descriptor.Wanted) (names : CharacterNames) (t : Tag) :
    Reading Descriptor := ofRefined (@Descriptor.parse names wanted t.value)

/-- Reads a tag's value as a descriptor; a problem is reported. -/
def Draft.parse (d : Draft) (s : Scope) (wanted : Descriptor.Wanted) (t : Tag) :
    Draft × Reading Descriptor :=
  match readDescriptor wanted s.charNames t with
  | .refused m => (d.report s t m, .refused m)
  | reading => (d, reading)

/-- Reads a parameter: its type and its name must not be empty. -/
def readParam (names : CharacterNames) (t : Tag) : Reading Descriptor :=
  match Descriptor.split .all t.value with
  | .error m => .refused m.message
  | .ok clauses =>
    match Record.filled clauses.typeText, Record.filled clauses.nameText with
    | some _, some _ => ofRefined (@Descriptor.refine names clauses)
    | _, _ => .refused "param is missing a type or a name"

/-- Cuts the clauses out of a tag's value. -/
def readClauses (wanted : Descriptor.Wanted) (t : Tag) : Reading Descriptor.Clauses :=
  match Descriptor.split wanted t.value with
  | .error m => .refused m.message
  | .ok clauses => .found clauses

/-- A rule that reads the tags of some names and stores what it found, if there are any tags. -/
def DocRule.collecting {α : Type} (names : List String) (read : CharacterNames → Tag → Reading α)
    (store : Option (List α) → Record → Record) : DocRule :=
  ⟨[], fun s d =>
    let tags := s.findAll names
    let c := collect (read s.charNames) tags
    let d := d.reportAll s c.refused
    if c.overflow then (d, some .overflow)
    else
      let found := if tags.isEmpty then none else some c.found
      ({ d with record := store found d.record }, none)⟩

/-- A rule that reads the last tag of some names, unless its value is empty, and stores what it
    found. -/
def DocRule.reading (names : List String) (wanted : Descriptor.Wanted)
    (store : Option Descriptor → Record → Record) : DocRule :=
  ⟨[], fun s d =>
    match s.find? names with
    | none => (d, none)
    | some tag =>
      if tag.value.isEmpty then (d, none)
      else match d.parse s wanted tag with
        | (d, .found a) => ({ d with record := store (some a) d.record }, none)
        | (d, .refused _) => ({ d with record := store none d.record }, none)
        | (d, .overflow) => (d, some .overflow)⟩

/-- The names that tags refer to: the type clause in braces, or else the first word. -/
def references (tags : List Tag) : List String :=
  tags.filterMap fun t =>
    let (type, _) := Descriptor.splitType (Text.trim t.value.toList)
    let body := Text.trim t.value.toList
    if type = Descriptor.wildcard && !body.isEmpty then
      some (String.ofList (body.takeWhile fun c => !Text.isBlank c))
    else Record.filled (some type)

/-- A list that is missing when it would be empty. -/
def nonEmpty {α : Type} : List α → Option (List α)
  | [] => none
  | l => some l

end DocGraph.Rule
