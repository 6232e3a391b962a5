import DocGraph.Descriptor.Basic
import DocGraph.Named
import DocGraph.Tag

/-! Records: what is documented about one symbol.

    A record's identity and category are fixed at its birth; the rules of its category fill in the
    rest, and resolution adds its relations to other records. What a symbol says of itself is taken
    over as it was given, of whatever kind it is. -/

namespace DocGraph

/-- The relations of a record to others, by their long names. A list is missing until something
    belongs to it. -/
structure Relations where
  /-- The long names of the ancestors, the farthest first. -/
  ancestors : Option (List String) := none
  directSubclasses : Option (List Value) := none
  indirectSubclasses : Option (List Value) := none
  /-- The interfaces that ancestors implement. -/
  inheritedInterfaces : Option (List String) := none
  directImplementers : Option (List Value) := none
  indirectImplementers : Option (List Value) := none
  /-- The files of the records that depend on this one. -/
  dependentPaths : Option (List String) := none

/-- What is documented about one symbol. -/
structure Record where
  id : Int
  category : String
  /-- The record of the file that the symbol belongs to. -/
  moduleId : Option Int := none
  kind : Option String := none
  name : Value := .null
  /-- The long name of what the symbol is a member of. -/
  memberof : Value := .null
  longname : Value := .null
  static : Bool := true
  qualifier : Value := .null
  access : Option String := none
  exported : Value := .null
  ignored : Value := .bool false
  undocumented : Value := .bool false
  filePath : Value := .null
  description : Option String := none
  params : Option (List Descriptor) := none
  properties : Option (List Descriptor) := none
  returns : Option Descriptor := none
  type : Option Descriptor := none
  typedef : Option Descriptor := none
  examples : Option (List String) := none
  see : Option (List String) := none
  since : Option String := none
  version : Option String := none
  deprecated : Value := .null
  experimental : Value := .null
  isAbstract : Option Bool := none
  isOverride : Option Bool := none
  todo : Option (List String) := none
  throws : Option (List Descriptor) := none
  emits : Option (List Descriptor) := none
  listens : Option (List Descriptor) := none
  /-- The names of the classes that the symbol extends. -/
  parents : Option (List String) := none
  /-- The names of the interfaces that the symbol implements. -/
  interfaces : Option (List String) := none
  isInterface : Option Bool := none
  externalLink : Option String := none
  testTargets : Option (List String) := none
  testId : Value := .null
  importPath : Value := .null
  importStyle : Value := .null
  isAsync : Option Bool := none
  generator : Option Bool := none
  decorators : Option (List Value) := none
  lineNumber : Value := .null
  content : Value := .null
  tagsKnown : List Tag := []
  tagsUnknown : List Tag := []
  relations : Relations := {}
  /-- What was set beyond the fields above, or against what they hold, by name. -/
  extra : Named Value := []

namespace Record

/-- A text that is there and not empty. -/
def filled : Option String → Option String
  | some s => if s.isEmpty then none else some s
  | none => none

/-- The text that a value is, if it is one and not empty. -/
def filledText (v : Value) : Option String := filled v.asText?

end Record

end DocGraph
