import DocGraph.Text.Quoted
import DocGraph.Value.Basic

/-! Descriptors: the structured form of a tag value such as
    `{type} [name=default] - description`. -/

namespace DocGraph

/-- A default as it was written and the value it spells. -/
structure Default where
  text : String
  value : Value

/-- The name that a descriptor describes. -/
structure Subject where
  name : String
  /-- Whether the name was written in brackets. -/
  optional : Bool
  default : Option Default

/-- What a descriptor says. -/
structure Descriptor where
  /-- The alternatives of the type. -/
  types : List String
  /-- Whether the type was marked as nullable or as not nullable. -/
  nullable : Option Bool
  /-- Whether the type was marked as standing for any number of values. -/
  spread : Bool
  subject : Option Subject
  description : Option String

namespace Descriptor

/-- The type of a descriptor that names none. -/
def wildcard : String := "*"

/-- The parts cut out of a tag value. -/
structure Clauses where
  typeText : Option String
  nameText : Option String
  description : Option String

/-- Which parts to cut out. -/
structure Wanted where
  type : Bool
  name : Bool
  description : Bool

/-- All three parts. -/
def Wanted.all : Wanted := ⟨true, true, true⟩

/-- Why a tag value is no descriptor. -/
inductive Malformed where
  /-- The value's optional name has no closing bracket. -/
  | unbalancedName (value : String)
  /-- The value has no name. -/
  | missingName (value : String)
  /-- An alternative of the type is empty. -/
  | emptyType (name description : Option String)
  deriving DecidableEq

/-- The quoted form of a text that may be missing. -/
def quotedOrNone : Option String → String
  | some s => Text.quoted s
  | none => "None"

/-- What is wrong, in words. -/
def Malformed.message : Malformed → String
  | unbalancedName value => "Unbalanced optional name in annotation: " ++ Text.quoted value
  | missingName value => "Missing name in annotation: " ++ Text.quoted value
  | emptyType name description =>
    "Empty type found name=" ++ quotedOrNone name ++ " desc=" ++ quotedOrNone description

end Descriptor

end DocGraph
