import DocGraph.Pattern.Basic
import DocGraph.Record.Attribute
import DocGraph.Value.Equality

/-! Predicates on records: what their attributes are expected to be. -/

namespace DocGraph

/-- The members of a value that is a collection, and not a text or a dictionary. -/
def Value.members? : Value → Option (List Value)
  | list items => some items
  | tuple items => some items
  | set members => some members
  | _ => none

/-- What a value is expected to be. -/
inductive Expected where
  | equal (v : Value)
  /-- One of some values. -/
  | oneOf (vs : List Value)
  /-- A text in which a pattern is found. -/
  | found (p : Pattern)
  | not (e : Expected)

/-- A record has to meet every expectation on its attributes. -/
abbrev Predicate := Named Expected

namespace Expected

/-- What a plain value says when it is expected: one of the members of a collection, or else the
    value itself. -/
def ofValue (v : Value) : Expected :=
  match v.members? with
  | some vs => oneOf vs
  | none => equal v

/-- Whether a value meets an expectation. -/
def accepts : Expected → Value → Bool
  | equal v, actual => actual.matchesLiteral v
  | oneOf vs, actual => vs.any actual.matchesLiteral
  | found p, .str s => p.found s
  | found _, _ => false
  | not e, actual => !e.accepts actual

end Expected

namespace Record

/-- Whether a record meets a predicate. -/
def fits (r : Record) (p : Predicate) : Bool := p.all fun f => f.2.accepts (r.get f.1)

/-- Whether a record meets one of some predicates; every record does when there are none. -/
def fitsAny (r : Record) (ps : List Predicate) : Bool := ps.isEmpty || ps.any r.fits

end Record

end DocGraph
