/-! Places in a settings text. -/

namespace DocGraph.Yaml

/-- Whether a character breaks a line. -/
def isBreak (c : Char) : Bool :=
  c = '\n' || c = '\r' || c = '\x85' || c = '\u2028' || c = '\u2029'

/-- What a line break stands for: the two separators for themselves, all others for a line feed. -/
def breakChar (c : Char) : Char := if c = '\u2028' || c = '\u2029' then c else '\n'

/-- Whether a character separates words: a blank, a tab or a line break. -/
def isGap (c : Char) : Bool := c = ' ' || c = '\t' || isBreak c

/-- Whether a gap or the end stands here. -/
def atGap : List Char → Bool
  | [] => true
  | c :: _ => isGap c

/-- Whether a line break or the end stands here. -/
def atBreak : List Char → Bool
  | [] => true
  | c :: _ => isBreak c

/-- Whether a character may occur in a settings text. -/
def isAllowed (c : Char) : Bool :=
  c = '\t' || c = '\n' || c = '\r' || c = '\x85' || (' ' ≤ c && c ≤ '~') ||
    ('\xa0' ≤ c && c ≤ '\ufffd') || '\uffff' < c

/-- Whether a line starts with three dashes, or three points, that stand alone. -/
def atMark : List Char → Bool
  | '-' :: '-' :: '-' :: rest => atGap rest
  | '.' :: '.' :: '.' :: rest => atGap rest
  | _ => false

/-- A place in a text: what follows, the line and the column, and how many characters came
    before. -/
structure Cursor where
  rest : List Char
  line : Nat
  column : Nat
  index : Nat

namespace Cursor

/-- The start of a text. -/
def start (cs : List Char) : Cursor := ⟨cs, 0, 0, 0⟩

/-- The place behind the next character. A byte-order mark takes no column. -/
def next (p : Cursor) : Cursor :=
  match p.rest with
  | [] => p
  | c :: rest =>
    if isBreak c then ⟨rest, p.line + 1, 0, p.index + 1⟩
    else ⟨rest, p.line, if c = '\ufeff' then p.column else p.column + 1, p.index + 1⟩

/-- The place a number of characters further on. -/
def skip (p : Cursor) : Nat → Cursor
  | 0 => p
  | n + 1 => p.next.skip n

/-- The run of characters satisfying `t`, and the place behind it. -/
def span (p : Cursor) (t : Char → Bool) : List Char × Cursor :=
  let run := p.rest.takeWhile t
  (run, p.skip run.length)

end Cursor

end DocGraph.Yaml
