import DocGraph.Record.Basic

/-! The attributes of a record by name: listing them, looking one up and setting one.

    Most attributes are fields that hold one kind of thing. Any attribute can be set to anything;
    what does not fit its field stands beside it and is what the attribute then is. -/

namespace DocGraph

/-- A tag as a dictionary. -/
def Tag.toValue (t : Tag) : Value :=
  .object [("tag_name", .str t.name), ("tag_value", .str t.value)]

/-- The entries about the name of a descriptor. -/
def Subject.fields (s : Subject) : Named Value :=
  [("name", .str s.name), ("optional", .bool s.optional)] ++
    match s.default with
    | some d => [("default_value", .str d.text), ("default_raw", d.value)]
    | none => []

/-- A descriptor as a dictionary. What it does not say is left out, but for its type. -/
def Descriptor.toValue (d : Descriptor) : Value :=
  .object ([("types", .list (d.types.map .str)),
      ("nullable", match d.nullable with
        | some b => .bool b
        | none => .null),
      ("spread", .bool d.spread)] ++
    (match d.subject with
      | some s => s.fields
      | none => []) ++
    (match d.description with
      | some s => [("description", .str s)]
      | none => []))

/-- What an attribute of a record holds. -/
inductive Attribute where
  | value (v : Value)
  | descriptor (d : Descriptor)
  | descriptors (ds : List Descriptor)
  | tags (ts : List Tag)

namespace Attribute

/-- A text or null. -/
def ofText (s : Option String) : Attribute := value (.ofText? s)

/-- A truth value or null. -/
def ofFlag : Option Bool → Attribute
  | some b => value (.bool b)
  | none => value .null

/-- A list of texts or null. -/
def ofTexts : Option (List String) → Attribute
  | some ss => value (.list (ss.map .str))
  | none => value .null

/-- A list of values or null. -/
def ofValues : Option (List Value) → Attribute
  | some vs => value (.list vs)
  | none => value .null

/-- A descriptor or null. -/
def ofDescriptor : Option Descriptor → Attribute
  | some d => descriptor d
  | none => value .null

/-- A list of descriptors or null. -/
def ofDescriptors : Option (List Descriptor) → Attribute
  | some ds => descriptors ds
  | none => value .null

/-- An integer or null. -/
def ofInt : Option Int → Attribute
  | some n => value (.int n)
  | none => value .null

/-- What an attribute holds, as a value. -/
def toValue : Attribute → Value
  | value v => v
  | descriptor d => d.toValue
  | descriptors ds => .list (ds.map Descriptor.toValue)
  | tags ts => .list (ts.map Tag.toValue)

/-- What an attribute is when compared with plain values: descriptors and tags equal none. -/
def plain : Attribute → Value
  | value v => v
  | descriptor _ => .ellipsis
  | descriptors ds => .list (ds.map fun _ => .ellipsis)
  | tags ts => .list (ts.map fun _ => .ellipsis)

end Attribute

namespace Record

/-- The fields of a record, in order. -/
def fields (r : Record) : Named Attribute :=
  [("id", .value (.int r.id)),
    ("category", .value (.str r.category)),
    ("module_id", .ofInt r.moduleId),
    ("kind", .ofText r.kind),
    ("name", .value r.name),
    ("memberof", .value r.memberof),
    ("longname", .value r.longname),
    ("static", .value (.bool r.static)),
    ("qualifier", .value r.qualifier),
    ("access", .ofText r.access),
    ("export", .value r.exported),
    ("ignore", .value r.ignored),
    ("undocument", .value r.undocumented),
    ("file_path", .value r.filePath),
    ("description", .ofText r.description),
    ("params", .ofDescriptors r.params),
    ("properties", .ofDescriptors r.properties),
    ("returns", .ofDescriptor r.returns),
    ("type", .ofDescriptor r.type),
    ("typedef", .ofDescriptor r.typedef),
    ("examples", .ofTexts r.examples),
    ("see", .ofTexts r.see),
    ("since", .ofText r.since),
    ("version", .ofText r.version),
    ("deprecated", .value r.deprecated),
    ("experimental", .value r.experimental),
    ("abstract", .ofFlag r.isAbstract),
    ("override", .ofFlag r.isOverride),
    ("todo", .ofTexts r.todo),
    ("throws", .ofDescriptors r.throws),
    ("emits", .ofDescriptors r.emits),
    ("listens", .ofDescriptors r.listens),
    ("extends", .ofTexts r.parents),
    ("implements", .ofTexts r.interfaces),
    ("interface", .ofFlag r.isInterface),
    ("external_link", .ofText r.externalLink),
    ("test_targets", .ofTexts r.testTargets),
    ("test_id", .value r.testId),
    ("import_path", .value r.importPath),
    ("import_style", .value r.importStyle),
    ("is_async", .ofFlag r.isAsync),
    ("generator", .ofFlag r.generator),
    ("decorators", .ofValues r.decorators),
    ("line_number", .value r.lineNumber),
    ("content", .value r.content),
    ("tags_known", .tags r.tagsKnown),
    ("tags_unknown", .tags r.tagsUnknown),
    ("resolved_extends_chain", .ofTexts r.relations.ancestors),
    ("resolved_direct_subclasses", .ofValues r.relations.directSubclasses),
    ("resolved_indirect_subclasses", .ofValues r.relations.indirectSubclasses),
    ("resolved_indirect_implements", .ofTexts r.relations.inheritedInterfaces),
    ("resolved_direct_implemented", .ofValues r.relations.directImplementers),
    ("resolved_indirect_implemented", .ofValues r.relations.indirectImplementers),
    ("resolved_dependent_file_paths", .ofTexts r.relations.dependentPaths)]

/-- The attributes of a record, in order. What was set against a field hides it. -/
def attributes (r : Record) : Named Attribute :=
  r.fields.map fun a => (a.1, ((r.extra.get? a.1).map Attribute.value).getD a.2)

/-- The attribute of a name; null when the record has none. -/
def get (r : Record) (name : String) : Value :=
  match r.extra.get? name with
  | some v => v
  | none => ((r.fields.get? name).map Attribute.plain).getD .null

/-- The names of the attributes that a record has: its fields, and what was set beyond them. -/
def attributeNames (r : Record) : List String := r.fields.names ++ r.extra.names

/-! ### Setting fields -/

/-- A text or nothing. -/
def asText : Value → Option (Option String)
  | .null => some none
  | .str s => some (some s)
  | _ => none

/-- A truth value or nothing. -/
def asFlag : Value → Option (Option Bool)
  | .null => some none
  | .bool b => some (some b)
  | _ => none

/-- An integer or nothing. -/
def asInt : Value → Option (Option Int)
  | .null => some none
  | .int n => some (some n)
  | _ => none

/-- A list of values, or nothing. -/
def asValues : Value → Option (Option (List Value))
  | .null => some none
  | .list items => some (some items)
  | _ => none

/-- A list of texts, or nothing. -/
def asTexts : Value → Option (Option (List String))
  | .null => some none
  | .list items => (items.mapM Value.asText?).map some
  | _ => none

/-- No descriptor. -/
def asDescriptor : Value → Option (Option Descriptor)
  | .null => some none
  | _ => none

/-- An empty list of descriptors, or nothing. -/
def asDescriptors : Value → Option (Option (List Descriptor))
  | .null => some none
  | .list [] => some (some [])
  | _ => none

/-- An empty list of tags. -/
def asTags : Value → Option (List Tag)
  | .list [] => some []
  | _ => none

/-- Sets a field of the relations, if the value fits it. -/
def assignRelation (s : Relations) (name : String) (v : Value) : Option Relations :=
  match name with
  | "resolved_extends_chain" => do return { s with ancestors := ← asTexts v }
  | "resolved_direct_subclasses" => do return { s with directSubclasses := ← asValues v }
  | "resolved_indirect_subclasses" => do return { s with indirectSubclasses := ← asValues v }
  | "resolved_indirect_implements" => do return { s with inheritedInterfaces := ← asTexts v }
  | "resolved_direct_implemented" => do return { s with directImplementers := ← asValues v }
  | "resolved_indirect_implemented" => do return { s with indirectImplementers := ← asValues v }
  | "resolved_dependent_file_paths" => do return { s with dependentPaths := ← asTexts v }
  | _ => none

/-- Sets a field, if there is one of the name and the value fits it. -/
def assign (r : Record) (name : String) (v : Value) : Option Record :=
  match name with
  | "category" => match v with
    | .str s => some { r with category := s }
    | _ => none
  | "module_id" => do return { r with moduleId := ← asInt v }
  | "kind" => do return { r with kind := ← asText v }
  | "name" => some { r with name := v }
  | "memberof" => some { r with memberof := v }
  | "longname" => some { r with longname := v }
  | "static" => match v with
    | .bool b => some { r with static := b }
    | _ => none
  | "qualifier" => some { r with qualifier := v }
  | "access" => do return { r with access := ← asText v }
  | "export" => some { r with exported := v }
  | "ignore" => some { r with ignored := v }
  | "undocument" => some { r with undocumented := v }
  | "file_path" => some { r with filePath := v }
  | "description" => do return { r with description := ← asText v }
  | "params" => do return { r with params := ← asDescriptors v }
  | "properties" => do return { r with properties := ← asDescriptors v }
  | "returns" => do return { r with returns := ← asDescriptor v }
  | "type" => do return { r with type := ← asDescriptor v }
  | "typedef" => do return { r with typedef := ← asDescriptor v }
  | "examples" => do return { r with examples := ← asTexts v }
  | "see" => do return { r with see := ← asTexts v }
  | "since" => do return { r with since := ← asText v }
  | "version" => do return { r with version := ← asText v }
  | "deprecated" => some { r with deprecated := v }
  | "experimental" => some { r with experimental := v }
  | "abstract" => do return { r with isAbstract := ← asFlag v }
  | "override" => do return { r with isOverride := ← asFlag v }
  | "todo" => do return { r with todo := ← asTexts v }
  | "throws" => do return { r with throws := ← asDescriptors v }
  | "emits" => do return { r with emits := ← asDescriptors v }
  | "listens" => do return { r with listens := ← asDescriptors v }
  | "extends" => do return { r with parents := ← asTexts v }
  | "implements" => do return { r with interfaces := ← asTexts v }
  | "interface" => do return { r with isInterface := ← asFlag v }
  | "external_link" => do return { r with externalLink := ← asText v }
  | "test_targets" => do return { r with testTargets := ← asTexts v }
  | "test_id" => some { r with testId := v }
  | "import_path" => some { r with importPath := v }
  | "import_style" => some { r with importStyle := v }
  | "is_async" => do return { r with isAsync := ← asFlag v }
  | "generator" => do return { r with generator := ← asFlag v }
  | "decorators" => do return { r with decorators := ← asValues v }
  | "line_number" => some { r with lineNumber := v }
  | "content" => some { r with content := v }
  | "tags_known" => do return { r with tagsKnown := ← asTags v }
  | "tags_unknown" => do return { r with tagsUnknown := ← asTags v }
  | other => do return { r with relations := ← assignRelation r.relations other v }

/-- Sets an attribute beside the fields. A field of its name holds nothing from then on. -/
def setBeside (r : Record) (name : String) (v : Value) : Record :=
  let emptied := if name = "category" then { r with category := "" }
    else (r.assign name .null).getD r
  { emptied with extra := r.extra.put name v }

/-! ### Setting attributes -/

/-- Why an attribute cannot be set. -/
inductive SetError where
  /-- The identity of a record does not change. -/
  | immutableId
  /-- There is no list to add to. -/
  | noList
  /-- A record is made of its fields only, and needs an identity and a category. -/
  | badFields
  deriving DecidableEq

/-- Sets an attribute by name. -/
def set (r : Record) (name : String) (v : Value) : Except SetError Record :=
  if name = "id" then .error .immutableId
  else match r.assign name v with
    | some r' => .ok { r' with extra := r.extra.erase name }
    | none => .ok (r.setBeside name v)

/-- Sets attributes in order, up to the first that cannot be set: the record as it then is, and the
    error if there was one. -/
def setAll (r : Record) : Named Value → Record × Option SetError
  | [] => (r, none)
  | (name, v) :: more => match r.set name v with
    | .error e => (r, some e)
    | .ok r' => r'.setAll more

/-- Adds an item to the list in an attribute. -/
def append (r : Record) (name : String) (v : Value) : Except SetError Record :=
  match (r.attributes.get? name).map Attribute.toValue |>.getD (r.get name) with
  | .list items => r.set name (.list (items ++ [v]))
  | _ => .error .noList

/-- Adds items to lists in order, up to the first attribute that holds none. -/
def appendAll (r : Record) : Named Value → Record × Option SetError
  | [] => (r, none)
  | (name, v) :: more => match r.append name v with
    | .error e => (r, some e)
    | .ok r' => r'.appendAll more

/-- The record with the given attributes. It needs an identity and a category, and takes no
    attributes beyond the fields. -/
def ofFields (given : Named Value) : Except SetError Record :=
  match given.get? "id", given.get? "category" with
  | some (.int id), some _ =>
    let r : Record := { id := id, category := "" }
    if given.names.all fun n => r.fields.names.contains n then
      match r.setAll (given.filter fun f => f.1 ≠ "id") with
      | (_, some e) => .error e
      | (r, none) => .ok r
    else .error .badFields
  | _, _ => .error .badFields

end Record

end DocGraph
