import DocGraph.Number.Digits
import DocGraph.Pattern.Basic

/-! Reading patterns.

    A character stands for itself, but for these: `.` is any character except a line feed, `^` and
    `$` are the start and the end, `[...]` is a set of characters and ranges, a set of all others
    with `^` at its head; `*`, `+`, `?` and numbers in braces repeat what stands before them, `|`
    separates alternatives, and round brackets group. A `?` behind a repetition asks for as few
    matches as possible, a `+` for all that can be had at once. A backslash takes the meaning from
    the mark behind it. -/

namespace DocGraph.Pattern

/-- Why a text is no pattern. -/
inductive Invalid where
  | invalid
  /-- A number of repetitions is too large. -/
  | overflow
  deriving DecidableEq

/-- A character of a written pattern, and whether a backslash stood before it. -/
structure Glyph where
  escaped : Bool
  char : Char
  deriving DecidableEq

/-- Resolves backslashes. They stand before marks only, not before letters and digits. -/
def glyphs : List Char → Except Invalid (List Glyph)
  | [] => .ok []
  | '\\' :: c :: cs =>
    if c.isAlphanum then .error .invalid
    else match glyphs cs with
      | .ok gs => .ok (⟨true, c⟩ :: gs)
      | .error e => .error e
  | '\\' :: [] => .error .invalid
  | c :: cs => match glyphs cs with
    | .ok gs => .ok (⟨false, c⟩ :: gs)
    | .error e => .error e

/-- A bare character. -/
def Glyph.is (g : Glyph) (c : Char) : Bool := !g.escaped && g.char == c

/-- The ranges of a set up to its closing bracket, and the number of glyphs they take, the bracket
    included. A bracket at the head is a member, as is a dash at either end. -/
def setTail (first : Bool) : List Glyph → Option (List (Char × Char) × Nat)
  | [] => none
  | lo :: dash :: hi :: after =>
    if lo.is ']' && !first then some ([], 1)
    else if dash.is '-' && !hi.is ']' then
      if hi.char < lo.char then none
      else (setTail false after).map fun r => ((lo.char, hi.char) :: r.1, r.2 + 3)
    else (setTail false (dash :: hi :: after)).map fun r => ((lo.char, lo.char) :: r.1, r.2 + 1)
  | lo :: rest =>
    if lo.is ']' && !first then some ([], 1)
    else (setTail false rest).map fun r => ((lo.char, lo.char) :: r.1, r.2 + 1)

/-- The set behind an opening bracket, and the number of glyphs it takes. -/
def setAt : List Glyph → Option (CharSet × Nat)
  | [] => none
  | g :: rest =>
    if g.is '^' then (setTail true rest).map fun r => (⟨true, r.1⟩, r.2 + 1)
    else (setTail true (g :: rest)).map fun r => (⟨false, r.1⟩, r.2)

/-- How often something is repeated. -/
structure Repeat where
  least : Nat
  /-- The largest number, if there is one. -/
  most : Option Nat
  deriving DecidableEq

/-- A mark of repetition. -/
inductive Mark where
  | star
  | plus
  | question
  /-- Numbers in braces. -/
  | counted (r : Repeat)

/-- How often a mark repeats what stands before it. -/
def Mark.meaning : Mark → Repeat
  | star => ⟨0, none⟩
  | plus => ⟨1, none⟩
  | question => ⟨0, some 1⟩
  | counted r => r

/-- The digits at the head of glyphs. -/
def digitsAt (gs : List Glyph) : List Char :=
  (gs.takeWhile fun g => !g.escaped && g.char.isDigit).map Glyph.char

/-- The number that digits spell, if there are any. -/
def numberOf? (digits : List Char) : Option Nat :=
  if digits.isEmpty then none else some (Number.ofDigits 10 digits)

/-- The repetition that numbers behind an opening brace spell, and the number of glyphs they take,
    the closing brace included. A brace that is followed by anything else stands for itself. -/
def numbersAt? (gs : List Glyph) : Option (Repeat × Nat) :=
  let low := digitsAt gs
  match gs.drop low.length with
  | [] => none
  | g :: rest =>
    if g.is '\x7d' then (numberOf? low).map fun n => (⟨n, some n⟩, low.length + 1)
    else if g.is ',' then
      let high := digitsAt rest
      match rest.drop high.length with
      | [] => none
      | close :: _ =>
        if close.is '\x7d' then
          some (⟨(numberOf? low).getD 0, numberOf? high⟩, low.length + high.length + 2)
        else none
    else none

/-- The parts of a written pattern. -/
inductive Piece where
  | one (set : CharSet)
  | start
  | stop
  | repeated (m : Mark)
  | opening
  | closing
  | bar

/-- The set of one character. -/
def single (c : Char) : CharSet := ⟨false, [(c, c)]⟩

/-- The part that a bare character stands for. -/
def pieceOf (c : Char) : Piece :=
  if c = '.' then .one ⟨true, [('\n', '\n')]⟩
  else if c = '^' then .start
  else if c = '$' then .stop
  else if c = '*' then .repeated .star
  else if c = '+' then .repeated .plus
  else if c = '?' then .repeated .question
  else if c = '(' then .opening
  else if c = ')' then .closing
  else if c = '|' then .bar
  else .one (single c)

/-- The parts of a written pattern; the first `skip` glyphs belong to the part before. -/
def pieces (skip : Nat) : List Glyph → Except Invalid (List Piece)
  | [] => .ok []
  | g :: rest => match skip with
    | k + 1 => pieces k rest
    | 0 =>
      if g.is '[' then match setAt rest with
        | none => .error .invalid
        | some (set, taken) => match pieces taken rest with
          | .ok ps => .ok (.one set :: ps)
          | .error e => .error e
      else match (if g.is '\x7b' then numbersAt? rest else none) with
        | some (r, taken) => match pieces taken rest with
          | .ok ps => .ok (.repeated (.counted r) :: ps)
          | .error e => .error e
        | none => match pieces 0 rest with
          | .ok ps => .ok ((if g.escaped then .one (single g.char) else pieceOf g.char) :: ps)
          | .error e => .error e

/-! ### Grouping -/

/-- What a repetition mark behind a part does. -/
inductive Standing where
  /-- It repeats the part. -/
  | single
  /-- The part is a repetition of a pattern already, and the mark can only say which matches are
      preferred. -/
  | repeated (r : Repeat) (p : Pattern)
  /-- It is refused. -/
  | fixed

/-- What has been read inside one pair of brackets. -/
structure Group where
  /-- The alternatives before the last bar. -/
  before : Option Pattern
  /-- The parts behind the last bar, the last one first. -/
  parts : List (Pattern × Standing)

/-- A group of which nothing has been read. -/
def Group.empty : Group := ⟨none, []⟩

/-- The parts of the group in a row. -/
def Group.sequence (g : Group) : Pattern :=
  g.parts.foldl (fun p part => both part.1 p) .nothing

/-- The pattern of a group. -/
def Group.pattern (g : Group) : Pattern :=
  match g.before with
  | none => g.sequence
  | some p => either p g.sequence

/-- Adds a part to a group. -/
def Group.add (g : Group) (p : Pattern) (s : Standing) : Group :=
  { g with parts := (p, s) :: g.parts }

/-- A repeated pattern. -/
def Repeat.apply (r : Repeat) (asFew : Bool) (p : Pattern) : Pattern :=
  both (times r.least p) (match r.most with
    | none => many asFew p
    | some most => upTo asFew (most - r.least) p)

/-- No number of repetitions is as large as this. -/
def repeatLimit : Nat := Nat.pow 2 32 - 1

/-- Whether a number of repetitions is too large. -/
def Repeat.isTooLarge (r : Repeat) : Bool :=
  repeatLimit ≤ r.least || r.most.any (repeatLimit ≤ ·)

/-- What a repetition mark makes of the last part; marks that cannot stand there are refused. -/
def repeatPart (m : Mark) : Pattern × Standing → Except Invalid (Pattern × Standing)
  | (p, .single) =>
    if m.meaning.most.any (· < m.meaning.least) then .error .invalid
    else .ok (m.meaning.apply false p, .repeated m.meaning p)
  | (_, .repeated r p) => match m with
    | .question => .ok (r.apply true p, .fixed)
    | .plus => .ok (firstOf (r.apply false p), .fixed)
    | _ => .error .invalid
  | (_, .fixed) => .error .invalid

/-- Reads parts into groups, the innermost first. Only a part that stands alone is repeated, and
    only once. -/
def assemble (g : Group) (outer : List Group) : List Piece → Except Invalid Pattern
  | [] => if outer.isEmpty then .ok g.pattern else .error .invalid
  | piece :: rest => match piece with
    | .one set => assemble (g.add (.one set) .single) outer rest
    | .start => assemble (g.add .start .fixed) outer rest
    | .stop => assemble (g.add .stop .fixed) outer rest
    | .bar => assemble ⟨some g.pattern, []⟩ outer rest
    | .opening => assemble .empty (g :: outer) rest
    | .closing => match outer with
      | [] => .error .invalid
      | above :: more => assemble (above.add g.pattern .single) more rest
    | .repeated m =>
      if m.meaning.isTooLarge then .error .overflow
      else match g.parts with
        | [] => .error .invalid
        | last :: before => match repeatPart m last with
          | .ok part => assemble { g with parts := part :: before } outer rest
          | .error e => .error e

/-- The pattern that a text writes. -/
def read (s : String) : Except Invalid Pattern := do
  assemble .empty [] (← pieces 0 (← glyphs s.toList))

end DocGraph.Pattern
