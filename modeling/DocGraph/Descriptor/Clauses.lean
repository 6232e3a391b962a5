import DocGraph.Descriptor.Basic
import DocGraph.Text.Basic

/-! Cutting a tag value into its clauses.

    The type stands first, in braces; then the name, a word or a balanced piece in square brackets;
    then the description, perhaps behind a dash. -/

namespace DocGraph.Descriptor

/-- Whether a clause may end here: at the end or at white space. -/
def atBoundary : List Char → Bool
  | [] => true
  | c :: _ => Text.isBlank c

/-- The text of a type up to the first closing brace at a boundary, and what follows the white space
    after it. An `@` before that brace makes it no type, so that an inline link is none. -/
def typeTail : List Char → Option (List Char × List Char)
  | [] => none
  | c :: rest =>
    if c = '\x7d' && atBoundary rest then some ([], rest.dropWhile Text.isBlank)
    else if c = '@' then none
    else (typeTail rest).map fun r => (c :: r.1, r.2)

/-- The type clause at the head of a value, and the rest. -/
def typeClause? : List Char → Option (List Char × List Char)
  | '\x7b' :: rest => typeTail rest
  | _ => none

/-- The shortest non-empty piece after which as many brackets have closed as opened, and the rest.
    `depth` is the number of brackets still open. -/
def bracketTail (depth : Int) : List Char → Option (List Char × List Char)
  | [] => none
  | c :: rest =>
    let depth := if c = '[' then depth + 1 else if c = ']' then depth - 1 else depth
    if depth = 0 then some ([c], rest)
    else (bracketTail depth rest).map fun r => (c :: r.1, r.2)

/-- The name clause at the head of `rest`, and what follows it; `value` is quoted in a refusal. -/
def nameClause (value : String) (rest : List Char) : Except Malformed (List Char × List Char) :=
  match rest with
  | '[' :: _ =>
    match bracketTail 0 rest with
    | some (name, after) => .ok (name, Text.trim after)
    | none => .error (.unbalancedName value)
  | _ =>
    let name := rest.takeWhile fun c => !Text.isBlank c
    if name.isEmpty then .error (.missingName value)
    else .ok (name, (rest.dropWhile fun c => !Text.isBlank c).dropWhile Text.isBlank)

/-- The description: a dash that stands alone at its head is not part of it. -/
def descriptionClause (rest : List Char) : List Char :=
  match rest with
  | '-' :: after => if atBoundary after then Text.trim after else Text.trim rest
  | _ => Text.trim rest

/-- The text of the type clause, and the value without it. A value without a type clause has the
    wildcard type. -/
def splitType (rest : List Char) : String × List Char :=
  match typeClause? rest with
  | some (type, after) => (String.ofList type, after)
  | none => (wildcard, rest)

/-- Cuts the wanted clauses out of a tag value. -/
def split (wanted : Wanted) (value : String) : Except Malformed Clauses :=
  let body := Text.trim value.toList
  let (typeText, rest) :=
    if wanted.type then
      let (type, rest) := splitType body
      (some type, rest)
    else (none, body)
  if wanted.name then
    match nameClause value rest with
    | .error e => .error e
    | .ok (name, rest) =>
      .ok ⟨typeText, some (String.ofList name),
        if wanted.description then some (String.ofList (descriptionClause rest)) else none⟩
  else
    .ok ⟨typeText, none,
      if wanted.description then some (String.ofList (descriptionClause rest)) else none⟩

end DocGraph.Descriptor
