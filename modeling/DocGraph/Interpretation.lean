import DocGraph.Category

/-! Interpreting tags: filling in a record by the rules of its category. -/

namespace DocGraph

open Rule

/-- Why a record cannot be interpreted. -/
inductive InterpretError where
  | unknownCategory (name : String)
  | cycle (path : List String)
  | undeclared (rule category : String)
  | failed (e : Failure)

namespace Interpretation

/-- The error that stopped the evaluation of rules. -/
def ofHalt : Halt Failure → InterpretError
  | .cycle path => .cycle path
  | .undeclared rule category => .undeclared rule category
  | .failed e => .failed e

/-- The evaluator of a category's rules in a scope. -/
def evaluator (c : Category) (strict : Bool) (scope : Scope) : Evaluator Draft Failure where
  rules := c.registry scope
  strict := strict
  category := c.name
  skip := fun name d => d.skip name

/-- Splits tags into those that a category understands and the others. -/
def splitTags (c : Category) (tags : List Tag) : List Tag × List Tag :=
  tags.partition fun t => c.tags.contains t.name

/-- Fills in a record of a category. The draft shows how far it came, also when it failed. -/
def interpretAs (c : Category) (strict : Bool) (scope : Scope) (record : Record) :
    Draft × Option InterpretError :=
  match run (evaluator c strict scope) (.start ⟨record, [], []⟩) with
  | (p, some halt) => (p.state, some (ofHalt halt))
  | (p, none) =>
    let (known, unknown) := splitTags c scope.tags
    ({ p.state with record := { p.state.record with tagsKnown := known, tagsUnknown := unknown } },
      none)

/-- Fills in a record by the rules of the category that it names. -/
def interpret (strict : Bool) (scope : Scope) (record : Record) : Draft × Option InterpretError :=
  match Category.find? record.category with
  | none => (⟨record, [], []⟩, some (.unknownCategory record.category))
  | some c => interpretAs c strict scope record

end Interpretation

/-- The words for a location that does not hold three items. -/
def badLocationMessage (items : Nat) : String :=
  if items < 3 then
    "not enough values to unpack (expected 3, got " ++ Number.decimalText items ++ ")"
  else "too many values to unpack (expected 3)"

/-- The refusal in words, when it has any. -/
def InterpretError.message : InterpretError → String
  | unknownCategory name => Category.unknownMessage name
  | cycle path => cycleMessage path
  | undeclared rule category => undeclaredMessage rule category
  | failed (.badLocation items) => badLocationMessage items
  | failed (.selection e) => e.message
  | failed .overflow => "a number in a default is too large"
  | failed .wrongType => "a value is of the wrong kind"

end DocGraph
