import DocGraph.Literal.Evaluation

/-! The value of a default.

    A default is read as JSON when it is JSON, else as a literal expression when it is one, and
    stands for its own text otherwise. -/

namespace DocGraph.Literal

/-- An integer in a literal is too large to be added to an imaginary number. -/
inductive Overflow where
  | integerTooLarge
  deriving DecidableEq

variable [CharacterNames]

/-- The value of a text as a literal expression. -/
def evaluate (cs : List Char) : Except Stop Value :=
  match tokens cs with
  | none => .error .notLiteral
  | some ts => match term? cs.length ts with
    | none => .error .notLiteral
    | some t => t.value

/-- The value that a default spells. -/
def read (s : String) : Except Overflow Value :=
  match Json.document s.toList with
  | .ok v => .ok v
  | .error _ => match evaluate s.toList with
    | .ok v => .ok v
    | .error .overflow => .error .integerTooLarge
    | .error .notLiteral => .ok (.str s)

end DocGraph.Literal
