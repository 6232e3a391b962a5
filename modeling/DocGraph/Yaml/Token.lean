import DocGraph.Yaml.Scalar

/-! The tokens of a settings text.

    Indentation opens and closes blocks. A key shows only by the colon behind it: the place of what
    may be one is kept, and the tokens that announce a key are put there when the colon comes. A
    text with directives or tags is refused. -/

namespace DocGraph.Yaml

/-- A token. -/
inductive Token where
  | documentStart
  | documentEnd
  | blockSequence
  | blockMapping
  | blockEnd
  | flowSequence
  | flowSequenceEnd
  | flowMapping
  | flowMappingEnd
  /-- The dash before an item. -/
  | item
  /-- The comma between items. -/
  | comma
  | key
  | value
  | anchor (name : String)
  | alias (name : String)
  | scalar (text : String) (plain : Bool)
  deriving DecidableEq

namespace Token

/-- The place of what may turn out to be a key. -/
structure PossibleKey where
  /-- The number of tokens before it. -/
  position : Nat
  /-- Whether nothing else can stand there. -/
  required : Bool
  line : Nat
  column : Nat
  index : Nat

/-- How far scanning has come. -/
structure Scan where
  cursor : Cursor
  tokens : List Token
  /-- The indentations of the open blocks, the innermost first. -/
  indents : List Int
  /-- For each open bracket, the innermost first, and for the text outside: what may be a key. -/
  keys : List (Option PossibleKey)
  /-- Whether a key may stand here. -/
  allowKey : Bool

namespace Scan

/-- Nothing scanned yet. -/
def start (cs : List Char) : Scan := ⟨.start cs, [], [], [none], true⟩

/-- Whether some bracket is open. -/
def inFlow (s : Scan) : Bool := 1 < s.keys.length

/-- The indentation of the innermost block. -/
def indent (s : Scan) : Int := s.indents.head?.getD (-1)

/-- The column of the cursor. -/
def column (s : Scan) : Int := s.cursor.column

/-- Adds a token. -/
def emit (s : Scan) (t : Token) : Scan := { s with tokens := s.tokens ++ [t] }

/-- Moves the cursor. -/
def skip (s : Scan) (n : Nat) : Scan := { s with cursor := s.cursor.skip n }

/-- Forgets what may be a key here; it is an error if it had to be one. -/
def dropKey (s : Scan) : Option Scan :=
  match s.keys with
  | some k :: outer => if k.required then none else some { s with keys := none :: outer }
  | _ => some s

/-- Notes that a key may start here. -/
def saveKey (s : Scan) : Option Scan :=
  if s.allowKey then
    (s.dropKey).map fun s =>
      let k : PossibleKey := ⟨s.tokens.length, !s.inFlow && s.indent = s.column, s.cursor.line,
        s.cursor.column, s.cursor.index⟩
      { s with keys := some k :: s.keys.drop 1 }
  else some s

/-- The greatest length of a key. -/
def keyLimit : Nat := 1024

/-- Whether a key that started there can no longer end here. -/
def isStale (p : Cursor) (k : PossibleKey) : Bool :=
  k.line ≠ p.line || keyLimit < p.index - k.index

/-- Forgets what can no longer be a key; it is an error if one of them had to be. -/
def dropStale (s : Scan) : Option Scan :=
  let stale := fun k => isStale s.cursor k
  if s.keys.any fun k => k.any fun k => stale k && k.required then none
  else some { s with keys := s.keys.map fun k => k.filter fun k => !stale k }

/-- Closes the blocks that are indented further than a column. -/
def unwind (column : Int) (s : Scan) : Scan :=
  if s.inFlow then s
  else
    let closed := s.indents.takeWhile fun i => column < i
    { s with
      indents := s.indents.drop closed.length
      tokens := s.tokens ++ closed.map fun _ => .blockEnd }

/-- Opens a block at a column, unless one that far in is open, and puts its token at a position. -/
def openBlock (column : Int) (t : Token) (position : Nat) (s : Scan) : Scan :=
  if s.indent < column then
    { s with indents := column :: s.indents, tokens := s.tokens.insertIdx position t }
  else s

/-- The number of characters before the next token, and whether a line break is among them. -/
def gapLength (inComment : Bool) : List Char → Nat × Bool
  | [] => (0, false)
  | c :: rest =>
    if isBreak c then ((gapLength false rest).1 + 1, true)
    else if inComment || c = ' ' then
      let (n, broken) := gapLength inComment rest
      (n + 1, broken)
    else if c = '#' then
      let (n, broken) := gapLength true rest
      (n + 1, broken)
    else (0, false)

/-- Moves to the next token. A new line outside brackets may start with a key. -/
def toToken (s : Scan) : Scan :=
  let s := if s.cursor.index = 0 && s.cursor.rest.head? = some '\ufeff' then s.skip 1 else s
  let (n, broken) := gapLength false s.cursor.rest
  { s.skip n with allowKey := s.allowKey || (broken && !s.inFlow) }

/-! ### The kinds of tokens -/

/-- A mark between documents. -/
def documentMark (t : Token) (s : Scan) : Option Scan :=
  (s.unwind (-1)).dropKey.map fun s => { (s.skip 3).emit t with allowKey := false }

/-- An opening bracket. -/
def openFlow (t : Token) (s : Scan) : Option Scan :=
  s.saveKey.map fun s => { (s.skip 1).emit t with keys := none :: s.keys, allowKey := true }

/-- A closing bracket. -/
def closeFlow (t : Token) (s : Scan) : Option Scan :=
  if s.inFlow then
    s.dropKey.map fun s => { (s.skip 1).emit t with keys := s.keys.drop 1, allowKey := false }
  else none

/-- A comma. -/
def commaMark (s : Scan) : Option Scan :=
  s.dropKey.map fun s => { (s.skip 1).emit .comma with allowKey := true }

/-- The dash of an item. -/
def itemMark (s : Scan) : Option Scan :=
  if s.inFlow then s.dropKey.map fun s => { (s.skip 1).emit .item with allowKey := true }
  else if s.allowKey then
    (s.openBlock s.column .blockSequence s.tokens.length).dropKey.map fun s =>
      { (s.skip 1).emit .item with allowKey := true }
  else none

/-- The mark of a key that is announced. -/
def keyMark (s : Scan) : Option Scan :=
  if s.inFlow then s.dropKey.map fun s => { (s.skip 1).emit .key with allowKey := false }
  else if s.allowKey then
    (s.openBlock s.column .blockMapping s.tokens.length).dropKey.map fun s =>
      { (s.skip 1).emit .key with allowKey := true }
  else none

/-- The colon of a value: what may be a key here is one. -/
def valueMark (s : Scan) : Option Scan :=
  match s.keys with
  | some k :: outer =>
    let s := { s with keys := none :: outer, tokens := s.tokens.insertIdx k.position .key }
    let s := if s.inFlow then s else s.openBlock k.column .blockMapping k.position
    some { (s.skip 1).emit .value with allowKey := false }
  | _ =>
    if s.inFlow then some { (s.skip 1).emit .value with allowKey := false }
    else if s.allowKey then
      let s := s.openBlock s.column .blockMapping s.tokens.length
      some { (s.skip 1).emit .value with allowKey := true }
    else none

/-- Whether a character may stand in the name of an anchor. -/
def isNameChar (c : Char) : Bool := c.isAlphanum || c = '-' || c = '_'

/-- Whether the name of an anchor may end here. -/
def endsName : List Char → Bool
  | [] => true
  | c :: _ => isGap c || "?:,]\x7d%@`".toList.contains c

/-- An anchor or an alias. -/
def nameMark (t : String → Token) (s : Scan) : Option Scan :=
  s.saveKey.bind fun s =>
    let (name, p) := s.cursor.next.span isNameChar
    if name.isEmpty || !endsName p.rest then none
    else some { s.emit (t (String.ofList name)) with cursor := p, allowKey := false }

/-- A block scalar. -/
def blockMark (fold : Bool) (s : Scan) : Option Scan :=
  s.dropKey.bind fun s => (blockScalar fold s.indent s.cursor).map fun r =>
    { s.emit (.scalar r.1 false) with cursor := r.2, allowKey := true }

/-- A quoted scalar. -/
def quoteMark (quote : Char) (s : Scan) : Except Error Scan := do
  let s ← orMalformed s.saveKey
  let (text, p) ← quotedScalar quote s.cursor
  return { s.emit (.scalar text false) with cursor := p, allowKey := false }

/-- A plain scalar. -/
def plainMark (s : Scan) : Option Scan :=
  s.saveKey.map fun s =>
    let (text, p, broken) := plain s.inFlow (s.indent + 1) s.cursor
    { s.emit (.scalar text true) with cursor := p, allowKey := broken }

/-- Whether a plain scalar may start with a character that `rest` follows. -/
def startsPlain (inFlow : Bool) (c : Char) (rest : List Char) : Bool :=
  !(isGap c || "-?:,[]\x7b\x7d#&*!|>'\"%@`".toList.contains c) ||
    (!atGap rest && (c = '-' || (!inFlow && (c = '?' || c = ':'))))

/-- Scans the token at the cursor, which starts with `c`, unless it is a quoted scalar. -/
def markAt (s : Scan) (c : Char) (rest : List Char) : Option Scan :=
  let loose := s.inFlow || atGap rest
  if s.cursor.column = 0 && c = '%' then none
  else if s.cursor.column = 0 && atMark s.cursor.rest then
    s.documentMark (if c = '-' then .documentStart else .documentEnd)
  else if c = '[' then s.openFlow .flowSequence
  else if c = '\x7b' then s.openFlow .flowMapping
  else if c = ']' then s.closeFlow .flowSequenceEnd
  else if c = '\x7d' then s.closeFlow .flowMappingEnd
  else if c = ',' then s.commaMark
  else if c = '-' && atGap rest then s.itemMark
  else if c = '?' && loose then s.keyMark
  else if c = ':' && loose then s.valueMark
  else if c = '*' then s.nameMark .alias
  else if c = '&' then s.nameMark .anchor
  else if c = '|' && !s.inFlow then s.blockMark false
  else if c = '>' && !s.inFlow then s.blockMark true
  else if startsPlain s.inFlow c rest then s.plainMark
  else none

/-- Scans the token at the cursor, which starts with `c`. -/
def tokenAt (s : Scan) (c : Char) (rest : List Char) : Except Error Scan :=
  if c = '\'' || c = '"' then s.quoteMark c else orMalformed (s.markAt c rest)

/-- Scans up to the end. The first argument bounds the number of tokens. -/
def toEnd : Nat → Scan → Except Error (List Token)
  | 0, _ => .error .malformed
  | k + 1, s => do
    let s ← orMalformed (s.toToken).dropStale
    let s := s.unwind s.column
    match s.cursor.rest with
    | [] => orMalformed ((s.unwind (-1)).dropKey.map Scan.tokens)
    | c :: rest => toEnd k (← s.tokenAt c rest)

end Scan

/-- The tokens of a text, unless it has none that make sense. -/
def scan (cs : List Char) : Except Error (List Token) :=
  if cs.all isAllowed then Scan.toEnd (cs.length + 1) (.start cs) else .error .malformed

end Token

end DocGraph.Yaml
