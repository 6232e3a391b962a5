import DocGraph.Literal.Term

/-! The values of expressions.

    Constants, tuples, lists, sets and dictionaries have values; a sign may stand before an unsigned
    number, and a sum or a difference may join a real number and an imaginary one. The members of a
    set and the keys of a dictionary must be values that can be told apart. The parts of an
    expression are looked at in order, and the first that has no value decides. -/

namespace DocGraph.Literal

/-- Why a term has no value. -/
inductive Stop where
  /-- The term is no literal. -/
  | notLiteral
  /-- An integer in a sum is too large for a double. -/
  | overflow
  deriving DecidableEq

/-- An unsigned number. -/
def unsignedNumber? : Term → Option Value
  | .constant (.int n) => some (.int n)
  | .constant (.float x) => some (.float x)
  | .constant (.complex a b) => some (.complex a b)
  | _ => none

/-- The number with the opposite sign. -/
def negated : Value → Value
  | .int n => .int (-n)
  | .float x => .float (Number.opposite x)
  | .complex a b => .complex (Number.opposite a) (Number.opposite b)
  | v => v

/-- A number with at most one sign. -/
def signedNumber? : Term → Option Value
  | .plus t => unsignedNumber? t
  | .minus t => (unsignedNumber? t).map negated
  | t => unsignedNumber? t

/-- The double of a real number. -/
def realPart : Value → Except Stop Float
  | .int n => match Number.ofInt? n with
    | some x => .ok x
    | none => .error .overflow
  | .float x => .ok x
  | _ => .error .notLiteral

/-- The sum, or with `minus` the difference, of a real number and an imaginary one. -/
def complexSum (minus : Bool) (a b : Term) : Except Stop Value :=
  match signedNumber? a, unsignedNumber? b with
  | some real, some (.complex re im) =>
    match realPart real with
    | .ok x => .ok (if minus then .complex (x - re) (0 - im) else .complex (x + re) (0 + im))
    | .error e => .error e
  | _, _ => .error .notLiteral

/-- The value of a number with at most one sign. -/
def numberValue (t : Term) : Except Stop Value :=
  match signedNumber? t with
  | some v => .ok v
  | none => .error .notLiteral

mutual

/-- The value of a term. -/
def Term.value : Term → Except Stop Value
  | .constant v => .ok v
  | .tuple items => match valuesOf items with
    | .ok vs => .ok (.tuple vs)
    | .error e => .error e
  | .list items => match valuesOf items with
    | .ok vs => .ok (.list vs)
    | .error e => .error e
  | .set items => match memberValues items with
    | .ok vs => .ok (.set (Value.ofMembers vs))
    | .error e => .error e
  | .dict entries => match entryValues entries with
    | .ok es => .ok (.dict (Value.ofEntries es))
    | .error e => .error e
  | .emptySet => .ok (.set [])
  | .sum a b => complexSum false a b
  | .difference a b => complexSum true a b
  | .plus t => numberValue (.plus t)
  | .minus t => numberValue (.minus t)
  | _ => .error .notLiteral

/-- The values of terms, in order. -/
def valuesOf : List Term → Except Stop (List Value)
  | [] => .ok []
  | t :: ts => match Term.value t with
    | .error e => .error e
    | .ok v => match valuesOf ts with
      | .error e => .error e
      | .ok vs => .ok (v :: vs)

/-- The values of the members of a set, in order. -/
def memberValues : List Term → Except Stop (List Value)
  | [] => .ok []
  | t :: ts => match Term.value t with
    | .error e => .error e
    | .ok v =>
      if v.hashable then match memberValues ts with
        | .error e => .error e
        | .ok vs => .ok (v :: vs)
      else .error .notLiteral

/-- The keys and values of entries, in order. -/
def entryValues : List (Term × Term) → Except Stop (List (Value × Value))
  | [] => .ok []
  | (k, v) :: es => match Term.value k with
    | .error e => .error e
    | .ok key => match Term.value v with
      | .error e => .error e
      | .ok value =>
        if key.hashable then match entryValues es with
          | .error e => .error e
          | .ok rest => .ok ((key, value) :: rest)
        else .error .notLiteral

end

end DocGraph.Literal
