import DocGraph.Json.Reader
import DocGraph.Text.Identifier

/-! The tokens of an expression.

    A literal is written in an expression language: numbers in several bases, quoted texts and byte
    strings, words, brackets and operators. Line breaks count only outside brackets, where they end
    the expression. A text that holds anything else has no tokens. -/

namespace DocGraph

/-- A table of the names that characters have, for the escapes that name one. -/
class CharacterNames where
  named? : List Char → Option Char

/-- The table without any name. -/
instance (priority := low) CharacterNames.none : CharacterNames := ⟨fun _ => .none⟩

namespace Literal

/-- One token. Quoted texts and byte strings are decoded. -/
inductive Token where
  | constant (v : Value)
  | text (cs : List Char)
  | bytes (octets : List UInt8)
  /-- A text with expressions in it, as it stands between its quotes. -/
  | formatted (raw : Bool) (body : List Char)
  /-- A name, or a word of the language. -/
  | word (cs : List Char)
  /-- A bracket or another single mark. -/
  | mark (c : Char)
  /-- An operator of more than one character. -/
  | operator (cs : List Char)

/-- The deepest nesting of brackets. -/
def depthLimit : Nat := 200

/-! ### Numbers -/

/-- A character that a word is made of: a letter, a digit, an underscore, or any character beyond
    ASCII. -/
def isNameChar (c : Char) : Bool := c.isAlphanum || c = '_' || 0x80 ≤ c.toNat

/-- The words that may stand right behind a number. -/
def wordsBehindNumbers : List String := ["and", "else", "for", "if", "in", "is", "or", "not"]

/-- Whether a number may end here. -/
def endsNumber (cs : List Char) : Bool :=
  !(cs.head?.any isNameChar) || wordsBehindNumbers.any fun w => w.toList.isPrefixOf cs

/-- Digits of a base with single underscores between them: the digits, and the characters after. -/
def digitRun (base : Nat) : List Char → Option (List Char × List Char)
  | [] => none
  | c :: cs =>
    if Number.isDigitOf base c then
      match cs with
      | '_' :: rest => (digitRun base rest).map fun r => (c :: r.1, r.2)
      | d :: rest =>
        if Number.isDigitOf base d then (digitRun base (d :: rest)).map fun r => (c :: r.1, r.2)
        else some ([c], cs)
      | [] => some ([c], [])
    else none

/-- An integer after the mark of its base. -/
def basedInteger (base : Nat) (cs : List Char) : Option (Value × List Char) :=
  let body := match cs with
    | '_' :: rest => rest
    | rest => rest
  match digitRun base body with
  | some (digits, rest) => some (.int (Number.ofDigits base digits), rest)
  | none => none

/-- The exponent of a decimal number, when its letter is there. A letter without digits is no
    exponent: then the number has to end before it. -/
def exponentOf (cs : List Char) : Option (Option Int × List Char) :=
  match cs with
  | [] => some (none, cs)
  | c :: body =>
    if c = 'e' ∨ c = 'E' then
      let (negative, digits) := match body with
        | '-' :: r => (true, r)
        | '+' :: r => (false, r)
        | r => (false, r)
      match digitRun 10 digits with
      | some (run, rest) =>
        let size : Int := Number.ofDigits 10 run
        some (some (if negative then -size else size), rest)
      | none => if endsNumber cs then some (none, cs) else none
    else some (none, cs)

/-- The fraction of a decimal number, when its point is there; it may be empty. -/
def fractionOf (cs : List Char) : Option (Option (List Char) × List Char) :=
  match cs with
  | '.' :: rest =>
    match rest with
    | d :: _ =>
      if Number.isDigit d then (digitRun 10 rest).map fun r => (some r.1, r.2)
      else some (some [], rest)
    | [] => some (some [], [])
  | _ => some (none, cs)

/-- The double that decimal digits, a fraction and an exponent spell. -/
def doubleOf (whole : List Char) (fraction : Option (List Char)) (exponent : Option Int) : Float :=
  let decimals := fraction.getD []
  let digits := whole ++ decimals
  Number.ofDecimal (Number.ofDigits 10 digits) digits.length (exponent.getD 0 - decimals.length)

/-- An integer from its decimal digits. Only a zero may begin with a zero, and the number of digits
    is limited. -/
def decimalInteger? (whole : List Char) : Option Value :=
  match whole with
  | '0' :: rest => if rest.all (· = '0') then some (.int 0) else none
  | _ =>
    if Number.digitLimit < whole.length then none else some (.int (Number.ofDigits 10 whole))

/-- A decimal number: an integer, a double, or an imaginary number. -/
def decimalNumber (cs : List Char) : Option (Value × List Char) := do
  let (whole, rest) ← match cs with
    | '.' :: _ => some ([], cs)
    | _ => digitRun 10 cs
  let (fraction, rest) ← fractionOf rest
  let (exponent, rest) ← exponentOf rest
  match rest with
  | 'j' :: rest => some (.complex 0 (doubleOf whole fraction exponent), rest)
  | 'J' :: rest => some (.complex 0 (doubleOf whole fraction exponent), rest)
  | _ =>
    if fraction.isNone && exponent.isNone then (decimalInteger? whole).map fun v => (v, rest)
    else some (.float (doubleOf whole fraction exponent), rest)

/-- A number; of words only some may follow it. -/
def numberToken (cs : List Char) : Option (Value × List Char) := do
  let (v, rest) ← match cs with
    | '0' :: c :: body =>
      if c = 'x' ∨ c = 'X' then basedInteger 16 body
      else if c = 'o' ∨ c = 'O' then basedInteger 8 body
      else if c = 'b' ∨ c = 'B' then basedInteger 2 body
      else decimalNumber cs
    | _ => decimalNumber cs
  if endsNumber rest then some (v, rest) else none

/-! ### Texts and byte strings -/

/-- What stands before a quoted text: whether its escapes are left alone, whether it is a byte
    string, and whether it has expressions in it. -/
structure Quotation where
  raw : Bool
  bytes : Bool
  formatted : Bool

/-- Whether a character is a quote. -/
def isQuote (c : Char) : Bool := c = '"' || c = '\''

/-- The quotation that letters before a quote ask for. -/
def quotationOf? (letters : List Char) : Option Quotation :=
  match letters.map Char.toLower with
  | [] => some ⟨false, false, false⟩
  | ['u'] => some ⟨false, false, false⟩
  | ['r'] => some ⟨true, false, false⟩
  | ['b'] => some ⟨false, true, false⟩
  | ['f'] => some ⟨false, false, true⟩
  | ['b', 'r'] => some ⟨true, true, false⟩
  | ['r', 'b'] => some ⟨true, true, false⟩
  | ['f', 'r'] => some ⟨true, false, true⟩
  | ['r', 'f'] => some ⟨true, false, true⟩
  | _ => none

/-- The quotation that starts here and the characters from its quote on. -/
def quotation? (cs : List Char) : Option (Quotation × List Char) :=
  let letters := cs.takeWhile Char.isAlpha
  let rest := cs.drop letters.length
  if rest.head?.any isQuote then (quotationOf? letters).map fun q => (q, rest) else none

/-- The characters up to the closing quote, escapes unread, and the characters after it. A backslash
    keeps the next character from closing the text; a text in single quotes stays on its line. -/
def quotedBody (quote : Char) : List Char → Option (List Char × List Char)
  | [] => none
  | '\\' :: c :: rest => (quotedBody quote rest).map fun r => ('\\' :: c :: r.1, r.2)
  | c :: rest =>
    if c = quote then some ([], rest)
    else if c = '\n' ∨ c = '\\' then none
    else (quotedBody quote rest).map fun r => (c :: r.1, r.2)

/-- As `quotedBody`, for a text between three quotes on either side. -/
def tripleBody (quote : Char) : List Char → Option (List Char × List Char)
  | [] => none
  | '\\' :: c :: rest => (tripleBody quote rest).map fun r => ('\\' :: c :: r.1, r.2)
  | c :: rest =>
    if [quote, quote, quote].isPrefixOf (c :: rest) then some ([], rest.drop 2)
    else if c = '\\' then none
    else (tripleBody quote rest).map fun r => (c :: r.1, r.2)

/-- The character for an escape letter. -/
def plainEscape? : Char → Option Char
  | '\\' => some '\\'
  | '\'' => some '\''
  | '"' => some '"'
  | 'a' => some '\x07'
  | 'b' => some '\x08'
  | 'f' => some '\x0c'
  | 'n' => some '\n'
  | 'r' => some '\r'
  | 't' => some '\t'
  | 'v' => some '\x0b'
  | _ => none

/-- The code point that exactly `width` hexadecimal digits spell, and the width. -/
def hexEscape? (width : Nat) (cs : List Char) : Option (Nat × Nat) :=
  let digits := cs.take width
  if digits.length = width && digits.all (Number.isDigitOf 16) then
    some (Number.ofDigits 16 digits, width + 1)
  else none

section Names

variable [CharacterNames]

/-- The code point of the character that is named in braces, and the width of the escape. -/
def namedEscape? : List Char → Option (Nat × Nat)
  | '\x7b' :: rest =>
    let name := rest.takeWhile (· != '\x7d')
    if name.isEmpty || name.length = rest.length then none
    else (CharacterNames.named? name).map fun c => (c.toNat, name.length + 3)
  | _ => none

/-- What an escape stands for: nothing, a code point, or its own characters; with the number of
    characters it takes after its backslash. -/
inductive Escape where
  | nothing (width : Nat)
  | code (n : Nat) (width : Nat)
  | verbatim

/-- Reads the escape that the characters after a backslash form. Byte strings know no escapes of
    four or eight digits, and none by name. -/
def escapeOf (bytes : Bool) (cs : List Char) : Option Escape :=
  match cs with
  | [] => none
  | c :: rest =>
    if c = '\n' then some (.nothing 1)
    else if Number.isDigitOf 8 c then
      let digits := (cs.take 3).takeWhile (Number.isDigitOf 8)
      some (.code (Number.ofDigits 8 digits) digits.length)
    else if c = 'x' then (hexEscape? 2 rest).map fun e => .code e.1 e.2
    else if c = 'u' ∧ !bytes then (hexEscape? 4 rest).map fun e => .code e.1 e.2
    else if c = 'U' ∧ !bytes then
      match hexEscape? 8 rest with
      | some (n, width) => if n ≤ 0x10ffff then some (.code n width) else none
      | none => none
    else if c = 'N' ∧ !bytes then (namedEscape? rest).map fun e => .code e.1 e.2
    else match plainEscape? c with
      | some x => some (.code x.toNat 1)
      | none => some .verbatim

/-- The code points of a text between quotes; `skip` counts the characters that the last escape
    still takes. -/
def decodeBody (bytes : Bool) (skip : Nat) : List Char → Option (List Nat)
  | [] => some []
  | c :: rest =>
    match skip with
    | k + 1 => decodeBody bytes k rest
    | 0 =>
      if c = '\\' then
        match escapeOf bytes rest with
        | none => none
        | some (.nothing width) => decodeBody bytes width rest
        | some (.code n width) => (decodeBody bytes width rest).map (n :: ·)
        | some .verbatim => (decodeBody bytes 0 rest).map (c.toNat :: ·)
      else (decodeBody bytes 0 rest).map (c.toNat :: ·)

/-- The token of a text between quotes. A byte string is written in ASCII, and its escapes count
    modulo the size of a byte. -/
def quotedToken (q : Quotation) (body : List Char) : Option Token := do
  if q.formatted then some (.formatted q.raw body)
  else if q.bytes && body.any (fun c => 0x80 ≤ c.toNat) then none
  else
    let codes ← if q.raw then some (body.map Char.toNat) else decodeBody q.bytes 0 body
    if q.bytes then some (.bytes (codes.map fun n => (n % 256).toUInt8))
    else some (.text (codes.map Json.charOf))

/-- A quoted text or byte string, given from its quote on, and the characters after it. -/
def textToken (q : Quotation) (cs : List Char) : Option (Token × List Char) := do
  match cs with
  | a :: b :: c :: rest' =>
    let (body, after) ←
      if a = b ∧ b = c then tripleBody a rest' else quotedBody a (b :: c :: rest')
    (quotedToken q body).map fun t => (t, after)
  | a :: rest' =>
    let (body, after) ← quotedBody a rest'
    (quotedToken q body).map fun t => (t, after)
  | [] => none

/-! ### Lines and tokens -/

/-- The characters from the first line on that is neither empty nor a comment. That line must not
    be indented, and neither may the end of the text be. -/
def lineStart (indented comment : Bool) : List Char → Option (List Char)
  | [] => if indented && !comment then none else some []
  | c :: rest =>
    if c = '\n' then lineStart false false rest
    else if comment then lineStart indented true rest
    else if c = ' ' ∨ c = '\t' then lineStart true false rest
    else if c = '\x0c' then lineStart false false rest
    else if c = '#' then lineStart indented true rest
    else match c, rest with
      | '\\', '\n' :: rest' => if rest'.isEmpty then none else lineStart indented false rest'
      | _, _ => if indented then none else some (c :: rest)

/-- A word and the characters after it. -/
def wordToken (cs : List Char) : Option (Token × List Char) :=
  let word := cs.takeWhile isNameChar
  if Text.isIdentifier word then some (.word word, cs.drop word.length) else none

/-- The operators of three characters and of two. -/
def operators : List String :=
  ["**=", "//=", "<<=", ">>=", "!=", "%=", "&=", "**", "*=", "+=", "-=", "->", "//", "/=", ":=",
    "<<", "<=", "<>", "==", ">=", ">>", "@=", "^=", "|="]

/-- The single marks beside brackets. -/
def marks : List Char :=
  ['%', '&', '*', '+', ',', '-', '.', '/', ':', ';', '<', '=', '>', '@', '^', '|', '~']

/-- An operator or a mark and the characters after it. -/
def markToken (cs : List Char) : Option (Token × List Char) :=
  match operators.find? fun o => o.toList.isPrefixOf cs with
  | some o => some (.operator o.toList, cs.drop o.length)
  | none => match cs with
    | c :: rest => if marks.contains c then some (.mark c, rest) else none
    | [] => none

/-- A number and the characters after it. -/
def constantToken (cs : List Char) : Option (Token × List Char) :=
  (numberToken cs).map fun r => (.constant r.1, r.2)

/-- Any token but a bracket, and the characters after it. -/
def plainToken (cs : List Char) : Option (Token × List Char) :=
  match cs with
  | '.' :: '.' :: '.' :: rest => some (.constant .ellipsis, rest)
  | '.' :: d :: _ => if Number.isDigit d then constantToken cs else markToken cs
  | c :: _ =>
    if Number.isDigit c then constantToken cs
    else match quotation? cs with
      | some (q, rest) => textToken q rest
      | none => if isNameChar c then wordToken cs else markToken cs
  | [] => none

/-- The tokens of an expression. `depth` is the number of open brackets; the first argument bounds
    the number of steps. -/
def tokensFrom : Nat → Nat → List Char → Option (List Token)
  | 0, _, _ => none
  | _ + 1, depth, [] => if depth = 0 then some [] else none
  | n + 1, depth, c :: rest =>
    if c = ' ' ∨ c = '\t' ∨ c = '\x0c' then tokensFrom n depth rest
    else if c = '#' then tokensFrom n depth (rest.dropWhile (· != '\n'))
    else if c = '\n' then
      if depth = 0 then
        match lineStart false false rest with
        | some [] => some []
        | _ => none
      else tokensFrom n depth rest
    else if c = '\\' then
      match rest with
      | '\n' :: rest' => if rest'.isEmpty then none else tokensFrom n depth rest'
      | _ => none
    else if c = '(' ∨ c = '[' ∨ c = '\x7b' then
      if depth < depthLimit then (tokensFrom n (depth + 1) rest).map (.mark c :: ·) else none
    else if c = ')' ∨ c = ']' ∨ c = '\x7d' then
      if depth = 0 then none else (tokensFrom n (depth - 1) rest).map (.mark c :: ·)
    else
      match plainToken (c :: rest) with
      | some (t, rest') => (tokensFrom n depth rest').map (t :: ·)
      | none => none

/-- The tokens of a text. Blanks and tabs at its beginning are passed over. -/
def tokens (cs : List Char) : Option (List Token) :=
  if cs.contains '\x00' then none
  else
    let body := (Text.toLineFeeds cs).dropWhile fun c => c = ' ' || c = '\t'
    match lineStart false false body with
    | some start => tokensFrom (start.length + 1) 0 start
    | none => none

end Names

end Literal

end DocGraph
