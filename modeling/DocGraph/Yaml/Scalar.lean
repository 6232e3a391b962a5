import DocGraph.Yaml.Cursor
import DocGraph.Yaml.Error

/-! The texts of scalars.

    A scalar stands plain, in single or double quotes, or as a block of lines. Lines that go on are
    folded: one break becomes a blank, and of several breaks all but the first are kept. -/

namespace DocGraph.Yaml

/-- What folding makes of a line break and of those behind it. -/
def folded (first : Char) (more : List Char) : List Char :=
  if breakChar first ≠ '\n' then breakChar first :: more
  else if more.isEmpty then [' '] else more

/-! ### Plain scalars -/

/-- Whether a character ends a plain scalar inside brackets. -/
def isFlowMark (c : Char) : Bool := c = ',' || c = '[' || c = ']' || c = '\x7b' || c = '\x7d'

/-- Whether a colon before this is a mark, and not part of a plain scalar. -/
def marksValue (inFlow : Bool) : List Char → Bool
  | [] => true
  | c :: _ => isGap c || (inFlow && isFlowMark c)

/-- The number of characters of a plain scalar before the next gap or mark. -/
def plainLength (inFlow : Bool) : List Char → Nat
  | [] => 0
  | c :: rest =>
    if isGap c || (c = ':' && marksValue inFlow rest) || (inFlow && (isFlowMark c || c = '?'))
    then 0
    else plainLength inFlow rest + 1

/-- The blanks and line breaks here: how many characters they are, and the breaks, or nothing when
    a line of them is a document mark. -/
def plainBreaks : List Char → Nat × Option (List Char)
  | [] => (0, some [])
  | c :: rest =>
    if c = ' ' then
      let (n, breaks) := plainBreaks rest
      (n + 1, breaks)
    else if isBreak c then
      if atMark rest then (1, none)
      else
        let (n, breaks) := plainBreaks rest
        (n + 1, breaks.map (breakChar c :: ·))
    else (0, some [])

/-- The gap behind a piece of a plain scalar: what it contributes if the scalar goes on, the place
    behind it, and whether it has a line break. Without a contribution the scalar ends. -/
def plainGap (p : Cursor) : List Char × Cursor × Bool :=
  let (blanks, p) := p.span (· = ' ')
  match p.rest with
  | [] => (blanks, p, false)
  | c :: rest =>
    if isBreak c then
      if atMark rest then ([], p.next, true)
      else
        let (n, breaks) := plainBreaks rest
        (match breaks with
          | some more => folded c more
          | none => [], p.next.skip n, true)
    else (blanks, p, false)

/-- Whether a comment starts here. -/
def atComment : List Char → Bool
  | '#' :: _ => true
  | _ => false

/-- The text of a plain scalar behind `before`, the place behind it, and whether it ended in a line
    break. The first argument bounds the number of pieces. -/
def plainFrom (inFlow : Bool) (indent : Int) :
    Nat → Cursor → List Char → Bool → List Char × Cursor × Bool
  | 0, p, _, broken => ([], p, broken)
  | k + 1, p, before, broken =>
    let n := plainLength inFlow p.rest
    if atComment p.rest || n = 0 then ([], p, broken)
    else
      let piece := before ++ p.rest.take n
      let (gap, p, broken) := plainGap (p.skip n)
      if gap.isEmpty || atComment p.rest || (!inFlow && p.column < indent) then (piece, p, broken)
      else
        let (more, p, broken) := plainFrom inFlow indent k p gap broken
        (piece ++ more, p, broken)

/-- A plain scalar: its text, the place behind it, and whether it ended in a line break. -/
def plain (inFlow : Bool) (indent : Int) (p : Cursor) : String × Cursor × Bool :=
  let (text, rest) := plainFrom inFlow indent (p.rest.length + 1) p [] false
  (String.ofList text, rest)

/-! ### Quoted scalars -/

/-- The blanks, tabs and line breaks at the head of a line inside quotes: how many characters they
    are, and the breaks. A document mark is refused. -/
def quotedBreaks (atStart : Bool) (cs : List Char) : Option (Nat × List Char) :=
  if atStart && atMark cs then none
  else match cs with
    | [] => some (0, [])
    | c :: rest =>
      if c = ' ' || c = '\t' then (quotedBreaks false rest).map fun r => (r.1 + 1, r.2)
      else if isBreak c then
        (quotedBreaks true rest).map fun r => (r.1 + 1, breakChar c :: r.2)
      else some (0, [])

/-- The character that a one-letter escape stands for. -/
def escapeChar? (c : Char) : Option Char :=
  match c with
  | '0' => some '\x00'
  | 'a' => some '\x07'
  | 'b' => some '\x08'
  | 't' => some '\t'
  | '\t' => some '\t'
  | 'n' => some '\n'
  | 'v' => some '\x0b'
  | 'f' => some '\x0c'
  | 'r' => some '\r'
  | 'e' => some '\x1b'
  | ' ' => some ' '
  | '"' => some '"'
  | '\\' => some '\\'
  | '/' => some '/'
  | 'N' => some '\x85'
  | '_' => some '\xa0'
  | 'L' => some '\u2028'
  | 'P' => some '\u2029'
  | _ => none

/-- The number of hexadecimal digits behind the letter of an escape. -/
def escapeWidth? (c : Char) : Option Nat :=
  match c with
  | 'x' => some 2
  | 'u' => some 4
  | 'U' => some 8
  | _ => none

/-- The largest number that is looked up as a character; a greater one is too large. -/
def codeLimit : Nat := Nat.pow 2 31 - 1

/-- The character of a number. Half of a surrogate pair is shown as the replacement. -/
def codeChar (code : Nat) : Except Error Char :=
  if codeLimit < code then .error .overflow
  else if 0x10ffff < code then .error .noCharacter
  else .ok (if code.isValidChar then Char.ofNat code else '\ufffd')

/-- What stands behind a backslash: the characters it gives, and how many it takes. -/
def escaped : List Char → Except Error (List Char × Nat)
  | [] => .error .malformed
  | c :: rest =>
    match escapeChar? c, escapeWidth? c with
    | some e, _ => .ok ([e], 1)
    | none, some width =>
      let digits := rest.take width
      if digits.length = width && digits.all (Number.isDigitOf 16) then
        (codeChar (Number.ofDigits 16 digits)).map fun e => ([e], width + 1)
      else .error .malformed
    | none, none =>
      if isBreak c then (orMalformed (quotedBreaks true rest)).map fun r => (r.2, r.1 + 1)
      else .error .malformed

/-- The blanks and line breaks inside quotes: what they become, and the place behind them. -/
def quotedGap (p : Cursor) : Option (List Char × Cursor) :=
  let (blanks, p) := p.span fun c => c = ' ' || c = '\t'
  match p.rest with
  | [] => none
  | c :: rest =>
    if isBreak c then
      (quotedBreaks true rest).map fun r => (folded c r.2, p.next.skip r.1)
    else some (blanks, p)

/-- The text of a quoted scalar up to its closing quote, and the place behind it. The first
    argument bounds the number of characters. -/
def quotedFrom (quote : Char) : Nat → Cursor → Except Error (List Char × Cursor)
  | 0, _ => .error .malformed
  | k + 1, p =>
    let more (text : List Char) (p : Cursor) : Except Error (List Char × Cursor) :=
      (quotedFrom quote k p).map fun r => (text ++ r.1, r.2)
    match p.rest with
    | [] => .error .malformed
    | c :: rest =>
      if c = quote then
        if quote = '\'' && rest.head? = some '\'' then more ['\''] (p.skip 2)
        else .ok ([], p.next)
      else if isGap c then match quotedGap p with
        | none => .error .malformed
        | some (text, p) => more text p
      else if quote = '"' && c = '\\' then match escaped rest with
        | .error e => .error e
        | .ok (text, n) => more text (p.next.skip n)
      else more [c] p.next

/-- A quoted scalar: its text, and the place behind it. -/
def quotedScalar (quote : Char) (p : Cursor) : Except Error (String × Cursor) :=
  (quotedFrom quote (p.rest.length + 1) p.next).map fun r => (String.ofList r.1, r.2)

/-! ### Block scalars -/

/-- What happens to the line breaks at the end of a block. -/
inductive Chomping where
  | clip
  | strip
  | keep
  deriving DecidableEq

/-- The chomping that a mark asks for. -/
def chomping? (c : Char) : Option Chomping :=
  if c = '+' then some .keep else if c = '-' then some .strip else none

/-- The indentation that a digit asks for. -/
def increment? (c : Char) : Option Nat := if '1' ≤ c ∧ c ≤ '9' then some (c.toNat - 48) else none

/-- The marks behind the head of a block, and how many they are. -/
def blockMarks : List Char → Chomping × Option Nat × Nat
  | [] => (.clip, none, 0)
  | c :: rest =>
    match chomping? c, increment? c with
    | some chomp, _ => match rest.head?.bind increment? with
      | some n => (chomp, some n, 2)
      | none => (chomp, none, 1)
    | none, some n => match rest.head?.bind chomping? with
      | some chomp => (chomp, some n, 2)
      | none => (.clip, some n, 1)
    | none, none => (.clip, none, 0)

/-- The line breaks before the lines of a block, whose indentation is at most `indent`, and how
    many characters they take. -/
def blockBreaks (indent : Nat) (column : Nat) : List Char → Nat × List Char
  | [] => (0, [])
  | c :: rest =>
    if c = ' ' && column < indent then
      let (n, breaks) := blockBreaks indent (column + 1) rest
      (n + 1, breaks)
    else if isBreak c then
      let (n, breaks) := blockBreaks indent 0 rest
      (n + 1, breakChar c :: breaks)
    else (0, [])

/-- The indentation of the first lines of a block: the line breaks before the text, the widest
    indentation among those lines, and how many characters they take. -/
def blockIndentation (column widest : Nat) : List Char → Nat × List Char × Nat
  | [] => (0, [], widest)
  | c :: rest =>
    if c = ' ' then
      let (n, breaks, w) := blockIndentation (column + 1) (max widest (column + 1)) rest
      (n + 1, breaks, w)
    else if isBreak c then
      let (n, breaks, w) := blockIndentation 0 widest rest
      (n + 1, breakChar c :: breaks, w)
    else (0, [], widest)

/-- Whether a blank or a tab stands here. -/
def atBlank : List Char → Bool
  | ' ' :: _ => true
  | '\t' :: _ => true
  | _ => false

/-- The lines of a block at an indentation, behind `breaks`: the text, the break that ended it, the
    breaks behind that, and the place. The first argument bounds the number of lines. -/
def blockLines (fold : Bool) (indent : Nat) :
    Nat → Cursor → List Char → List Char → List Char × List Char × List Char × Cursor
  | 0, p, breaks, last => ([], last, breaks, p)
  | k + 1, p, breaks, last =>
    if p.column ≠ indent || p.rest.isEmpty then ([], last, breaks, p)
    else
      let indented := atBlank p.rest
      let (line, p) := p.span fun c => !isBreak c
      let ending := (p.rest.take 1).map breakChar
      let p := p.next
      let (n, more) := blockBreaks indent p.column p.rest
      let p := p.skip n
      let before := breaks ++ line
      if p.column = indent && !p.rest.isEmpty then
        let joint :=
          if fold && ending = ['\n'] && !indented && !atBlank p.rest then
            if more.isEmpty then [' '] else []
          else ending
        let (text, last, breaks, p) := blockLines fold indent k p more ending
        (before ++ joint ++ text, last, breaks, p)
      else (before, ending, more, p)

/-- A block scalar behind its mark, inside an indentation: its text, and the place behind it. -/
def blockScalar (fold : Bool) (outer : Int) (p : Cursor) : Option (String × Cursor) :=
  let p := p.next
  let (chomp, increment, n) := blockMarks p.rest
  let p := p.skip n
  if !atBreak p.rest && p.rest.head? ≠ some ' ' then none
  else
    let (_, p) := p.span (· = ' ')
    let (_, p) := if atComment p.rest then p.span fun c => !isBreak c else ([], p)
    if !atBreak p.rest then none
    else
      let p := p.next
      let least := (max (outer + 1) 1).toNat
      let (n, breaks, indent) := match increment with
        | none =>
          let (n, breaks, widest) := blockIndentation p.column 0 p.rest
          (n, breaks, max least widest)
        | some k =>
          let (n, breaks) := blockBreaks (least + k - 1) p.column p.rest
          (n, breaks, least + k - 1)
      let p := p.skip n
      let (text, last, breaks, p) := blockLines fold indent (p.rest.length + 1) p breaks []
      let tail := match chomp with
        | .strip => []
        | .clip => last
        | .keep => last ++ breaks
      some (String.ofList (text ++ tail), p)

end DocGraph.Yaml
