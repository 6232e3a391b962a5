import Mathlib.Logic.Function.Basic
import DocGraph.Record.Basic

/-! Records as what they hold in each field.

    A record is the same as a function that gives what it holds in each of its fields (`field` and
    `ofField`). Changing fields is then updating the function, so that a statement about all fields
    but some needs no list of them. -/

namespace DocGraph

/-- The fields of a record. -/
inductive Field where
  | id | category | moduleId | kind | name | memberof | longname | static | qualifier | access
  | exported | ignored | undocumented | filePath | description | params | properties | returns
  | type | typedef | examples | see | since | version | deprecated | experimental | isAbstract
  | isOverride | todo | throws | emits | listens | parents | interfaces | isInterface
  | externalLink | testTargets | testId | importPath | importStyle | isAsync | generator
  | decorators | lineNumber | content | tagsKnown | tagsUnknown | relations | extra
  deriving DecidableEq

namespace Field

/-- What a field holds. -/
abbrev Kind : Field → Type
  | id => Int
  | category => String
  | moduleId => Option Int
  | static => Bool
  | kind | access | description | since | version | externalLink => Option String
  | name | memberof | longname | qualifier | exported | ignored | undocumented | filePath
  | deprecated | experimental | testId | importPath | importStyle | lineNumber | content => Value
  | params | properties | throws | emits | listens => Option (List Descriptor)
  | returns | type | typedef => Option Descriptor
  | examples | see | todo | parents | interfaces | testTargets => Option (List String)
  | isAbstract | isOverride | isInterface | isAsync | generator => Option Bool
  | decorators => Option (List Value)
  | tagsKnown | tagsUnknown => List Tag
  | relations => Relations
  | extra => Named Value

end Field

namespace Record

/-- What a record holds in a field. -/
def field (r : Record) : (f : Field) → f.Kind
  | .id => r.id
  | .category => r.category
  | .moduleId => r.moduleId
  | .kind => r.kind
  | .name => r.name
  | .memberof => r.memberof
  | .longname => r.longname
  | .static => r.static
  | .qualifier => r.qualifier
  | .access => r.access
  | .exported => r.exported
  | .ignored => r.ignored
  | .undocumented => r.undocumented
  | .filePath => r.filePath
  | .description => r.description
  | .params => r.params
  | .properties => r.properties
  | .returns => r.returns
  | .type => r.type
  | .typedef => r.typedef
  | .examples => r.examples
  | .see => r.see
  | .since => r.since
  | .version => r.version
  | .deprecated => r.deprecated
  | .experimental => r.experimental
  | .isAbstract => r.isAbstract
  | .isOverride => r.isOverride
  | .todo => r.todo
  | .throws => r.throws
  | .emits => r.emits
  | .listens => r.listens
  | .parents => r.parents
  | .interfaces => r.interfaces
  | .isInterface => r.isInterface
  | .externalLink => r.externalLink
  | .testTargets => r.testTargets
  | .testId => r.testId
  | .importPath => r.importPath
  | .importStyle => r.importStyle
  | .isAsync => r.isAsync
  | .generator => r.generator
  | .decorators => r.decorators
  | .lineNumber => r.lineNumber
  | .content => r.content
  | .tagsKnown => r.tagsKnown
  | .tagsUnknown => r.tagsUnknown
  | .relations => r.relations
  | .extra => r.extra

/-- The record with given fields. -/
def ofField (v : (f : Field) → f.Kind) : Record where
  id := v .id
  category := v .category
  moduleId := v .moduleId
  kind := v .kind
  name := v .name
  memberof := v .memberof
  longname := v .longname
  static := v .static
  qualifier := v .qualifier
  access := v .access
  exported := v .exported
  ignored := v .ignored
  undocumented := v .undocumented
  filePath := v .filePath
  description := v .description
  params := v .params
  properties := v .properties
  returns := v .returns
  type := v .type
  typedef := v .typedef
  examples := v .examples
  see := v .see
  since := v .since
  version := v .version
  deprecated := v .deprecated
  experimental := v .experimental
  isAbstract := v .isAbstract
  isOverride := v .isOverride
  todo := v .todo
  throws := v .throws
  emits := v .emits
  listens := v .listens
  parents := v .parents
  interfaces := v .interfaces
  isInterface := v .isInterface
  externalLink := v .externalLink
  testTargets := v .testTargets
  testId := v .testId
  importPath := v .importPath
  importStyle := v .importStyle
  isAsync := v .isAsync
  generator := v .generator
  decorators := v .decorators
  lineNumber := v .lineNumber
  content := v .content
  tagsKnown := v .tagsKnown
  tagsUnknown := v .tagsUnknown
  relations := v .relations
  extra := v .extra

theorem field_ofField (v : (f : Field) → f.Kind) (f : Field) : (ofField v).field f = v f := by
  cases f <;> rfl

theorem ofField_field (r : Record) : ofField r.field = r := rfl

/-- Records that hold the same in every field are equal. -/
theorem ext_field {r r' : Record} (h : ∀ f, r.field f = r'.field f) : r = r' := by
  rw [← ofField_field r, ← ofField_field r', funext h]

/-- A record with another value in a field. -/
def write (r : Record) (f : Field) (v : f.Kind) : Record := ofField (Function.update r.field f v)

@[simp] theorem field_write_self (r : Record) (f : Field) (v : f.Kind) :
    (r.write f v).field f = v := by
  rw [write, field_ofField, Function.update_self]

theorem field_write_of_ne (r : Record) {f g : Field} (h : g ≠ f) (v : f.Kind) :
    (r.write f v).field g = r.field g := by
  rw [write, field_ofField, Function.update_of_ne h]

end Record

end DocGraph
