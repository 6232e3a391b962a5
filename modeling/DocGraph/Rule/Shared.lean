import DocGraph.Rule.Draft

/-! The rules that every category shares. -/

namespace DocGraph.Rule

/-- Stands between a file and what it declares at its top level. -/
def scopeSeparator : String := "~"

/-- Stands between an owner and its static members. -/
def staticSeparator : String := "."

/-- Stands between an owner and the members of its instances. -/
def instanceSeparator : String := "#"

/-- The tag that marks a symbol as undocumented. -/
def undocumentedTag : String := "@_undocument"

/-- The tags that every category understands. -/
def sharedTags : List String :=
  ["@abstract", "@access", "@deprecated", "@desc", "@emits", "@example", "@experimental",
    "@ignore", "@listens", "@param", "@override", "@private", "@property", "@protected",
    "@public", "@return", "@returns", "@see", "@since", "@throws", "@todo", "@type", "@version",
    undocumentedTag]

/-! ### Identity -/

/-- Sets a fixed kind. -/
def kindRule (kind : String) : DocRule := .assign [] fun _ r => { r with kind := some kind }

/-- Takes over the symbol's qualifier. -/
def qualifierRule : DocRule := .assign [] fun s r => { r with qualifier := s.symbol.qualifier }

/-- Takes over the symbol's name. -/
def nameRule : DocRule := .assign [] fun s r => { r with name := s.symbol.name }

/-- Takes over the symbol's file. -/
def filePathRule : DocRule := .assign [] fun s r => { r with filePath := s.symbol.filePath }

/-- A symbol is static unless it says otherwise. -/
def staticRule : DocRule := .assign [] fun s r =>
  { r with static := s.symbol.static.isNull || s.symbol.static.truthy }

/-- The symbol is a member of its file. -/
def memberofFileRule : DocRule := .assign ["file_path"] fun _ r => { r with memberof := r.filePath }

/-- The symbol is a member of its owner. -/
def memberofOwnerRule : DocRule := .assign [] fun s r => { r with memberof := s.symbol.owner }

/-- Whether the scope separator occurs in a value: in a text, or among the parts of a value that has
    parts. -/
def isScoped? : Value → Option Bool
  | .str s => some (Text.hasChar s '~')
  | v => v.items?.map fun items => items.any fun i => i.same (.str scopeSeparator)

/-- What stands between an owner and a member of it. -/
def separatorFor (inScope static : Bool) : String :=
  if inScope then if static then staticSeparator else instanceSeparator else scopeSeparator

/-- The long name of something named `name` inside `memberof`. An owner in which no separator can be
    looked for gives none. -/
def longnameOf? (memberof : Value) (static : Bool) (name : Value) : Option Value :=
  if name.isNull then some .null
  else if memberof.truthy then
    (isScoped? memberof).map fun inScope =>
      .str (memberof.text ++ separatorFor inScope static ++ name.text)
  else some name

/-- Puts the long name together. -/
def longnameRule : DocRule :=
  ⟨["memberof", "name", "static"], fun _ d =>
    match longnameOf? d.record.memberof d.record.static d.record.name with
    | some longname => ({ d with record := { d.record with longname := longname } }, none)
    | none => (d, some .wrongType)⟩

/-! ### Flags and texts -/

/-- A rule that acts when a tag is there. -/
def whenTagged (names : List String) (f : Tag → Record → Record) : DocRule :=
  .assign [] fun s r => match s.find? names with
    | some tag => f tag r
    | none => r

/-- Marks the symbol as abstract. -/
def abstractRule : DocRule := whenTagged ["@abstract"] fun _ r => { r with isAbstract := some true }

/-- The access that a tag declares. -/
def accessOf (tag : Tag) : Option String :=
  if tag.name = "@public" then some "public"
  else if tag.name = "@protected" then some "protected"
  else if tag.name = "@private" then some "private"
  else Record.filled (some (Text.trimmed tag.value))

/-- Sets the access that the last access tag declares. -/
def accessRule : DocRule := .assign [] fun s r =>
  { r with access := (s.find? ["@access", "@public", "@protected", "@private"]).bind accessOf }

/-- The text of a tag, or true when it has none. -/
def textOrTrue (tag : Tag) : Value := if tag.value.isEmpty then .bool true else .str tag.value

/-- Marks the symbol as deprecated. -/
def deprecatedRule : DocRule :=
  whenTagged ["@deprecated"] fun tag r => { r with deprecated := textOrTrue tag }

/-- Marks the symbol as experimental. -/
def experimentalRule : DocRule :=
  whenTagged ["@experimental"] fun tag r => { r with experimental := textOrTrue tag }

/-- Sets the description. -/
def descriptionRule : DocRule := .assign [] fun s r =>
  { r with description := (s.find? ["@desc"]).map Tag.value }

/-- Collects the examples. -/
def examplesRule : DocRule := .assign [] fun s r =>
  { r with examples := nonEmpty (s.values ["@example"]) }

/-- Collects the cross references. -/
def seeRule : DocRule := .assign [] fun s r => { r with see := nonEmpty (s.values ["@see"]) }

/-- Collects the things to do. -/
def todoRule : DocRule := .assign [] fun s r => { r with todo := nonEmpty (s.values ["@todo"]) }

/-- Sets the version since which the symbol exists. -/
def sinceRule : DocRule := whenTagged ["@since"] fun tag r => { r with since := some tag.value }

/-- Sets the version. -/
def versionRule : DocRule :=
  whenTagged ["@version"] fun tag r => { r with version := some tag.value }

/-- Marks the symbol as ignored. -/
def ignoreRule : DocRule := whenTagged ["@ignore"] fun _ r => { r with ignored := .bool true }

/-- Marks the symbol as an override. -/
def overrideRule : DocRule := whenTagged ["@override"] fun _ r => { r with isOverride := some true }

/-- A symbol is undocumented when it is marked so or has no tag at all. -/
def undocumentedRule : DocRule := .assign [] fun s r =>
  { r with undocumented := .bool ((s.find? [undocumentedTag]).isSome || s.tags.isEmpty) }

/-- The symbol counts as documented in any case. -/
def documentedRule : DocRule := .assign [] fun _ r => { r with undocumented := .bool false }

/-! ### Descriptors -/

/-- A type and a description. -/
def typed : Descriptor.Wanted := ⟨true, false, true⟩

/-- A type alone. -/
def typeOnly : Descriptor.Wanted := ⟨true, false, false⟩

/-- Collects the parameters; without any the record keeps those that it has. -/
def paramsRule : DocRule :=
  .collecting ["@param"] readParam fun ds r => { r with params := ds <|> r.params }

/-- Collects the properties; without any the record keeps those that it has. -/
def propertiesRule : DocRule :=
  .collecting ["@property"] (readDescriptor .all) fun ds r =>
    { r with properties := ds <|> r.properties }

/-- Collects what the symbol throws. -/
def throwsRule : DocRule :=
  .collecting ["@throws"] (readDescriptor typed) fun ds r => { r with throws := ds }

/-- Collects the events that the symbol emits. -/
def emitsRule : DocRule :=
  .collecting ["@emits"] (readDescriptor typed) fun ds r => { r with emits := ds }

/-- Collects the events that the symbol listens to. -/
def listensRule : DocRule :=
  .collecting ["@listens"] (readDescriptor typed) fun ds r => { r with listens := ds }

/-- Sets what the symbol returns. -/
def returnsRule : DocRule :=
  .reading ["@return", "@returns"] typed fun d r => { r with returns := d }

/-- Sets the type of the symbol. -/
def typeRule : DocRule := .reading ["@type"] typeOnly fun d r => { r with type := d }

/-! ### Source facts -/

/-- Takes over the line number. -/
def lineNumberRule : DocRule := .assign [] fun s r => { r with lineNumber := s.symbol.lineNumber }

/-- Takes over the decorators. -/
def decoratorsRule : DocRule :=
  ⟨[], fun s d => match s.symbol.decorators.items? with
    | some items => ({ d with record := { d.record with decorators := nonEmpty items } }, none)
    | none => (d, some .wrongType)⟩

/-- Takes over whether the symbol is asynchronous and whether it is a generator. -/
def callableFlagsRule : DocRule := .assign [] fun s r =>
  { r with isAsync := some s.symbol.isAsync.truthy, generator := some s.symbol.generator.truthy }

/-- Takes over the content. -/
def contentRule : DocRule := .assign [] fun s r => { r with content := s.symbol.content }

/-- The rules that every category starts from, in order. -/
def sharedRules : Named DocRule :=
  [("qualifier", qualifierRule),
    ("name", nameRule),
    ("file_path", filePathRule),
    ("static", staticRule),
    ("longname", longnameRule),
    ("abstract", abstractRule),
    ("access", accessRule),
    ("deprecated", deprecatedRule),
    ("description", descriptionRule),
    ("emits", emitsRule),
    ("examples", examplesRule),
    ("experimental", experimentalRule),
    ("ignore", ignoreRule),
    ("line_number", lineNumberRule),
    ("listens", listensRule),
    ("override", overrideRule),
    ("params", paramsRule),
    ("properties", propertiesRule),
    ("returns", returnsRule),
    ("see", seeRule),
    ("since", sinceRule),
    ("todo", todoRule),
    ("throws", throwsRule),
    ("type", typeRule),
    ("undocument", undocumentedRule),
    ("version", versionRule),
    ("decorators", decoratorsRule)]

end DocGraph.Rule
