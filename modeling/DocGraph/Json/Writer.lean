import DocGraph.Text.Basic
import DocGraph.Text.Quoted
import DocGraph.Value.Display
import DocGraph.Value.Equality

/-! Writing JSON.

    The output is ASCII. Tuples are written as arrays, and values that JSON does not know (bytes,
    sets, complex numbers, the ellipsis) as texts of their written form. Keys that are numbers,
    truth values or null become texts; any other key cannot be written, and keys of mixed kinds
    cannot be put in order. Nor can an integer be written that is too long. The first fault in the
    order of the document is the one that is reported. -/

namespace DocGraph.Json

/-- How a document is laid out. -/
structure Style where
  /-- The number of blanks by which each level is indented; without it the document stays on one
      line. -/
  indent : Option Nat
  /-- Whether the entries of a dictionary are put in the order of their keys. -/
  sortKeys : Bool

/-- Why a document cannot be written. -/
inductive WriteError where
  /-- The keys of a dictionary cannot be written or put in order. -/
  | badKeys
  /-- An integer is too long. -/
  | longInteger
  deriving DecidableEq

/-- The error in words. -/
def WriteError.message : WriteError → String
  | badKeys => "keys cannot be written"
  | longInteger => Number.tooLongMessage

/-- A number below `0x10000` as an escape. -/
def unitEscape (n : Nat) : List Char := '\\' :: 'u' :: Text.hexDigits 4 n

/-- How one character of a text is written. -/
def writtenChar (c : Char) : List Char :=
  if c = '"' then ['\\', '"']
  else if c = '\\' then ['\\', '\\']
  else if c = '\n' then ['\\', 'n']
  else if c = '\r' then ['\\', 'r']
  else if c = '\t' then ['\\', 't']
  else if c = '\x0c' then ['\\', 'f']
  else if c = '\x08' then ['\\', 'b']
  else if ' ' ≤ c ∧ c ≤ '~' then [c]
  else if c.toNat < 0x10000 then unitEscape c.toNat
  else
    let n := c.toNat - 0x10000
    unitEscape (0xd800 + n / 0x400) ++ unitEscape (0xdc00 + n % 0x400)

/-- A text in double quotes. -/
def writtenText (s : String) : String :=
  String.ofList ('"' :: (s.toList.flatMap writtenChar ++ ['"']))

/-- The text of a double. -/
def writtenFloat (x : Float) : String :=
  match Number.unpack x with
  | .nan => "NaN"
  | .infinite negative => if negative then "-Infinity" else "Infinity"
  | .finite .. => Number.floatText x

/-- The text of an integer. -/
def writtenInteger (n : Int) : Except WriteError String :=
  if Number.isTooLong n then .error .longInteger else .ok (Number.decimalText n)

/-- The text under which a key is written. -/
def keyText : Value → Except WriteError String
  | .str s => .ok s
  | .float x => .ok (writtenFloat x)
  | .bool true => .ok "true"
  | .bool false => .ok "false"
  | .null => .ok "null"
  | .int n => writtenInteger n
  | _ => .error .badKeys

/-- Whether keys can be put in order: at most one, all texts or all numbers. -/
def orderable (keys : List Value) : Bool :=
  keys.length ≤ 1 || keys.all (fun k => match k with | .str _ => true | _ => false) ||
    keys.all fun k => k.quantity?.isSome

/-- The order of two keys of one kind. -/
def keyLe (a b : Value) : Bool :=
  match a, b with
  | .str s, .str t => decide (¬ t < s)
  | _, _ => match a.quantity?, b.quantity? with
    | some p, some q => !q.less p
    | _, _ => true

/-- What separates the brackets of a level from its parts. -/
def Style.newline (style : Style) (level : Nat) : String :=
  match style.indent with
  | some width => "\n" ++ String.ofList (List.replicate (width * level) ' ')
  | none => ""

/-- What separates two parts of a level. -/
def Style.separator (style : Style) (level : Nat) : String :=
  match style.indent with
  | some _ => "," ++ style.newline level
  | none => ", "

/-- The written parts between brackets. -/
def Style.block (style : Style) (level : Nat) (left right : String) (parts : List String) :
    String :=
  if parts.isEmpty then left ++ right
  else left ++ style.newline (level + 1) ++ Text.joined (style.separator (level + 1)) parts ++
    style.newline level ++ right

/-- A written key and a written value as an entry; the key is looked at first. -/
def writtenEntry : Except WriteError String → Except WriteError String → Except WriteError String
  | .error e, _ => .error e
  | .ok _, .error e => .error e
  | .ok key, .ok value => .ok (writtenText key ++ ": " ++ value)

/-- The written parts, or the first fault among them. -/
def allWritten : List (Except WriteError String) → Except WriteError (List String)
  | [] => .ok []
  | .error e :: _ => .error e
  | .ok s :: rest => (allWritten rest).map (s :: ·)

mutual

/-- Writes a value that stands at a level of nesting. -/
def writeAt (style : Style) (level : Nat) : Value → Except WriteError String
  | .null => .ok "null"
  | .bool true => .ok "true"
  | .bool false => .ok "false"
  | .int n => writtenInteger n
  | .float x => .ok (writtenFloat x)
  | .str s => .ok (writtenText s)
  | .list items => match writeItems style (level + 1) items with
    | .error e => .error e
    | .ok parts => .ok (style.block level "[" "]" parts)
  | .tuple items => match writeItems style (level + 1) items with
    | .error e => .error e
    | .ok parts => .ok (style.block level "[" "]" parts)
  | .dict entries =>
    if style.sortKeys && !orderable (entries.map Prod.fst) then .error .badKeys
    else
      let parts := writeEntries style (level + 1) entries
      let ordered :=
        if style.sortKeys then parts.mergeSort fun a b => keyLe a.1 b.1 else parts
      match allWritten (ordered.map Prod.snd) with
      | .error e => .error e
      | .ok parts => .ok (style.block level "\x7b" "\x7d" parts)
  | other => if other.hasLongInteger then .error .longInteger else .ok (writtenText other.text)

/-- Writes the items of a list. -/
def writeItems (style : Style) (level : Nat) : List Value → Except WriteError (List String)
  | [] => .ok []
  | v :: vs => match writeAt style level v with
    | .error e => .error e
    | .ok s => match writeItems style level vs with
      | .error e => .error e
      | .ok ss => .ok (s :: ss)

/-- Writes the entries of a dictionary, each beside its key, whether or not they can be
    written. -/
def writeEntries (style : Style) (level : Nat) :
    List (Value × Value) → List (Value × Except WriteError String)
  | [] => []
  | (k, v) :: es => (k, writtenEntry (keyText k) (writeAt style level v)) ::
      writeEntries style level es

end

/-- Writes a value as a document. -/
def write (style : Style) (v : Value) : Except WriteError String := writeAt style 0 v

end DocGraph.Json
