import DocGraph.Descriptor.Clauses
import DocGraph.Literal.Reader

/-! From clauses to descriptors.

    The type text may be marked as nullable, may stand in parentheses and may list alternatives; the
    name text may be optional and carry a default. -/

namespace DocGraph.Descriptor

/-! ### Types -/

/-- Whether an angle bracket opens before a bar and closes after it, all on one line. -/
def hasGenericUnion : List Char → Bool
  | [] => false
  | c :: rest =>
    (c = '<' && match (rest.takeWhile (· != '\n')).dropWhile (· != '|') with
      | [] => false
      | _ :: after => after.contains '>') || hasGenericUnion rest

/-- Whether the text begins with a spread union: three points and a parenthesis that closes on the
    same line. -/
def isSpreadUnion : List Char → Bool
  | '.' :: '.' :: '.' :: '(' :: rest => (rest.takeWhile (· != '\n')).contains ')'
  | _ => false

/-- Drops one bracket at either end. -/
def dropBrackets (left right : Char) (cs : List Char) : List Char :=
  let inner := match cs with
    | c :: rest => if c = left then rest else cs
    | [] => []
  if inner.getLast? = some right then inner.dropLast else inner

/-- Drops one parenthesis at either end. -/
def dropParens (cs : List Char) : List Char := dropBrackets '(' ')' cs

/-- The alternatives of a type text. A record type is left whole, and so are generic and spread
    unions, for a reader that understands them. -/
def alternatives (cs : List Char) : List (List Char) :=
  match cs with
  | '\x7b' :: _ => [cs]
  | '(' :: _ => Text.splitOn '|' (dropParens cs)
  | _ =>
    if cs.contains '|' && (hasGenericUnion cs || isSpreadUnion cs) then [cs]
    else Text.splitOn '|' cs

/-- The mark for nullable or not nullable at the head of a type text, and the text without it. -/
def nullableMark : List Char → Option Bool × List Char
  | '?' :: rest => (some true, rest)
  | '!' :: rest => (some false, rest)
  | cs => (none, cs)

/-- Whether a type text, without a parenthesis at its head, begins with three points. -/
def isSpread (cs : List Char) : Bool :=
  let bare := match cs with
    | '(' :: _ => dropParens cs
    | _ => cs
  ['.', '.', '.'].isPrefixOf bare

/-! ### Names -/

/-- Why clauses cannot be refined: the descriptor is malformed, or a number in its default is too
    large. -/
inductive Fault where
  | malformed (m : Malformed)
  | overflow
  deriving DecidableEq

variable [CharacterNames]

/-- The subject that a name text describes. -/
def subjectOf (nameText : List Char) : Except Fault Subject :=
  let optional := nameText.head? == some '['
  let inner := if optional then dropBrackets '[' ']' nameText else nameText
  let (name, default) := Text.cut '=' inner
  let name := String.ofList (Text.trim name)
  match default with
  | none => .ok ⟨name, optional, none⟩
  | some text =>
    let text := String.ofList (Text.trim text)
    match Literal.read text with
    | .ok value => .ok ⟨name, optional, some ⟨text, value⟩⟩
    | .error _ => .error .overflow

/-! ### Descriptors -/

/-- The type part of a descriptor: its alternatives, its nullable mark and whether it is spread. -/
def typePart (typeText : Option String) : List (List Char) × Option Bool × Bool :=
  match typeText with
  | none => ([wildcard.toList], none, false)
  | some text =>
    let (nullable, rest) := nullableMark text.toList
    (alternatives rest, nullable, isSpread rest)

/-- The descriptor that clauses describe. -/
def refine (clauses : Clauses) : Except Fault Descriptor :=
  let (types, nullable, spread) := typePart clauses.typeText
  if types.any List.isEmpty then
    .error (.malformed (.emptyType clauses.nameText clauses.description))
  else
    let build (subject : Option Subject) : Descriptor :=
      ⟨types.map String.ofList, nullable, spread, subject, clauses.description⟩
    match clauses.nameText with
    | none => .ok (build none)
    | some name =>
      if name.isEmpty then .ok (build none)
      else match subjectOf name.toList with
        | .ok subject => .ok (build (some subject))
        | .error e => .error e

/-- The descriptor that a tag value describes. -/
def parse (wanted : Wanted) (value : String) : Except Fault Descriptor :=
  match split wanted value with
  | .error m => .error (.malformed m)
  | .ok clauses => refine clauses

end DocGraph.Descriptor
