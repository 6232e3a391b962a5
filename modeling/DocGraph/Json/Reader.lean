import DocGraph.Number.Binary
import DocGraph.Number.Digits
import DocGraph.Text.Basic
import DocGraph.Value.Equality

/-! Reading JSON.

    Beside the standard grammar the reader takes `NaN`, `Infinity` and `-Infinity`. A repeated key
    keeps its first place and its last value. A refusal carries its cause and the place in the text
    where it was noticed.

    The readers below return the value they found and the characters after it, or a fault with the
    number of characters that were left; `read` turns that number into a place. -/

namespace DocGraph.Json

/-- Why a text is refused. -/
inductive Cause where
  | byteOrderMark
  | expectedValue
  | expectedName
  | expectedColon
  | expectedComma
  | extraData
  | controlCharacter
  | unterminatedText
  | badEscape
  | badUnicodeEscape
  | longInteger (digits : Nat)
  deriving DecidableEq

/-- A refusal with the number of characters left at its place. -/
structure Fault where
  cause : Cause
  left : Nat

/-- The outcome of reading from a list of characters. -/
abbrev Reading (α : Type) := Except Fault (α × List Char)

/-- White space between the parts of a document. -/
def isGap (c : Char) : Bool := c = ' ' || c = '\t' || c = '\n' || c = '\r'

/-- The characters after a gap. -/
def skipGap (cs : List Char) : List Char := cs.dropWhile isGap

/-- The number that four hexadecimal digits spell. -/
def hexQuad? (a b c d : Char) : Option Nat :=
  if [a, b, c, d].all (Number.isDigitOf 16) then some (Number.ofDigits 16 [a, b, c, d]) else none

/-- The character for an escape letter. -/
def escaped? : Char → Option Char
  | '"' => some '"'
  | '\\' => some '\\'
  | '/' => some '/'
  | 'b' => some '\x08'
  | 'f' => some '\x0c'
  | 'n' => some '\n'
  | 'r' => some '\r'
  | 't' => some '\t'
  | _ => none

/-- The character with a code point; a surrogate has none and is shown as the replacement. -/
def charOf (n : Nat) : Char :=
  if n.isValidChar then Char.ofNat n else '\ufffd'

/-- Whether a number is the first half of a surrogate pair. -/
def isHighHalf (n : Nat) : Bool := 0xd800 ≤ n && n ≤ 0xdbff

/-- Whether a number is the second half of a surrogate pair. -/
def isLowHalf (n : Nat) : Bool := 0xdc00 ≤ n && n ≤ 0xdfff

/-- The code point of a surrogate pair. -/
def joinHalves (high low : Nat) : Nat := 0x10000 + (high - 0xd800) * 0x400 + (low - 0xdc00)

/-- The character that an escape stands for and the number of characters it takes after its
    backslash. Two escapes in a row that form a surrogate pair stand for one character. -/
def escapeAt (opened : Nat) (cs : List Char) : Except Fault (Char × Nat) :=
  match cs with
  | [] => .error ⟨.unterminatedText, opened⟩
  | 'u' :: a :: b :: c :: d :: next :: rest =>
    match hexQuad? a b c d with
    | none => .error ⟨.badUnicodeEscape, cs.length⟩
    | some n =>
      match isHighHalf n, next, rest with
      | true, '\\', 'u' :: a' :: b' :: c' :: d' :: _ :: rest' =>
        match hexQuad? a' b' c' d' with
        | none => .error ⟨.badUnicodeEscape, rest'.length + 6⟩
        | some n' => .ok (if isLowHalf n' then (charOf (joinHalves n n'), 11) else (charOf n, 5))
      | _, _, _ => .ok (charOf n, 5)
  | 'u' :: _ => .error ⟨.badUnicodeEscape, cs.length⟩
  | c :: _ =>
    match escaped? c with
    | some x => .ok (x, 1)
    | none => .error ⟨.badEscape, cs.length + 1⟩

/-- Reads the characters of a text up to its closing quote. `opened` is the number of characters
    left at the opening quote, `done` the characters read so far, last first, and `skip` the number
    of characters that the last escape still takes. -/
def textTail (opened : Nat) (done : List Char) (skip : Nat) : List Char → Reading (List Char)
  | [] => .error ⟨.unterminatedText, opened⟩
  | c :: rest =>
    match skip with
    | k + 1 => textTail opened done k rest
    | 0 =>
      if c = '"' then .ok (done.reverse, rest)
      else if c = '\\' then
        match escapeAt opened rest with
        | .error f => .error f
        | .ok (x, width) => textTail opened (x :: done) width rest
      else if c.toNat < 0x20 then .error ⟨.controlCharacter, rest.length + 1⟩
      else textTail opened (c :: done) 0 rest

/-- The fraction digits after a point, when there are any. -/
def fractionPart : List Char → Option (List Char) × List Char
  | '.' :: c :: cs =>
    if Number.isDigit c then
      (some (c :: cs.takeWhile Number.isDigit), cs.dropWhile Number.isDigit)
    else (none, '.' :: c :: cs)
  | cs => (none, cs)

/-- The exponent after its letter, when it has digits. -/
def exponentPart (cs : List Char) : Option Int × List Char :=
  match cs with
  | [] => (none, cs)
  | c :: body =>
    if c = 'e' ∨ c = 'E' then
      let (negative, digits) := match body with
        | '-' :: r => (true, r)
        | '+' :: r => (false, r)
        | r => (false, r)
      let run := digits.takeWhile Number.isDigit
      if run.isEmpty then (none, cs)
      else
        let size : Int := Number.ofDigits 10 run
        (some (if negative then -size else size), digits.dropWhile Number.isDigit)
    else (none, cs)

/-- The number with the given digits, fraction and exponent. -/
def numberOf (negative : Bool) (whole : List Char) (fraction : Option (List Char))
    (exponent : Option Int) : Value :=
  match fraction, exponent with
  | none, none =>
    let n : Int := Number.ofDigits 10 whole
    .int (if negative then -n else n)
  | _, _ =>
    let decimals := fraction.getD []
    let digits := whole ++ decimals
    let x := Number.ofDecimal (Number.ofDigits 10 digits) digits.length
      (exponent.getD 0 - decimals.length)
    .float (if negative then Number.opposite x else x)

/-- Reads a number. A leading zero stands alone before the point. -/
def number (cs : List Char) : Reading Value :=
  let (negative, body) := match cs with
    | '-' :: r => (true, r)
    | r => (false, r)
  let (whole, rest) := match body with
    | '0' :: r => (['0'], r)
    | r => (r.takeWhile Number.isDigit, r.dropWhile Number.isDigit)
  if whole.isEmpty then .error ⟨.expectedValue, cs.length⟩
  else
    let (fraction, rest) := fractionPart rest
    let (exponent, rest) := exponentPart rest
    if fraction.isNone && exponent.isNone && Number.digitLimit < whole.length then
      .error ⟨.longInteger whole.length, cs.length⟩
    else .ok (numberOf negative whole fraction exponent, rest)

/-- Reads a word of the grammar or a number. -/
def atom (cs : List Char) : Reading Value :=
  match cs with
  | 'n' :: 'u' :: 'l' :: 'l' :: rest => .ok (.null, rest)
  | 't' :: 'r' :: 'u' :: 'e' :: rest => .ok (.bool true, rest)
  | 'f' :: 'a' :: 'l' :: 's' :: 'e' :: rest => .ok (.bool false, rest)
  | 'N' :: 'a' :: 'N' :: rest => .ok (.float Number.notANumber, rest)
  | 'I' :: 'n' :: 'f' :: 'i' :: 'n' :: 'i' :: 't' :: 'y' :: rest =>
    .ok (.float Number.infinity, rest)
  | '-' :: 'I' :: 'n' :: 'f' :: 'i' :: 'n' :: 'i' :: 't' :: 'y' :: rest =>
    .ok (.float (Number.opposite Number.infinity), rest)
  | _ => number cs

mutual

/-- Reads a value. The first argument bounds the number of nested steps. -/
def value : Nat → List Char → Reading Value
  | 0, cs => .error ⟨.expectedValue, cs.length⟩
  | n + 1, cs =>
    match cs with
    | '"' :: rest =>
      match textTail cs.length [] 0 rest with
      | .error f => .error f
      | .ok (text, rest) => .ok (.str (String.ofList text), rest)
    | '[' :: rest =>
      match skipGap rest with
      | ']' :: rest => .ok (.list [], rest)
      | rest => items n [] rest
    | '\x7b' :: rest =>
      match skipGap rest with
      | '\x7d' :: rest => .ok (.dict [], rest)
      | rest => members n [] rest
    | cs => atom cs

/-- Reads the items of a list up to its closing bracket; `done` holds those before, last first. -/
def items : Nat → List Value → List Char → Reading Value
  | 0, _, cs => .error ⟨.expectedValue, cs.length⟩
  | n + 1, done, cs =>
    match value n cs with
    | .error f => .error f
    | .ok (v, rest) =>
      match skipGap rest with
      | ']' :: rest => .ok (.list (v :: done).reverse, rest)
      | ',' :: rest => items n (v :: done) (skipGap rest)
      | rest => .error ⟨.expectedComma, rest.length⟩

/-- Reads the entries of an object up to its closing brace; `done` holds those before, last
    first. -/
def members : Nat → List (Value × Value) → List Char → Reading Value
  | 0, _, cs => .error ⟨.expectedValue, cs.length⟩
  | n + 1, done, cs =>
    match cs with
    | '"' :: rest =>
      match textTail cs.length [] 0 rest with
      | .error f => .error f
      | .ok (name, rest) =>
        match skipGap rest with
        | ':' :: rest =>
          match value n (skipGap rest) with
          | .error f => .error f
          | .ok (v, rest) =>
            let done := (.str (String.ofList name), v) :: done
            match skipGap rest with
            | '\x7d' :: rest => .ok (.dict (Value.ofEntries done.reverse), rest)
            | ',' :: rest => members n done (skipGap rest)
            | rest => .error ⟨.expectedComma, rest.length⟩
        | rest => .error ⟨.expectedColon, rest.length⟩
    | cs => .error ⟨.expectedName, cs.length⟩

end

/-- Reads a whole document. -/
def document (cs : List Char) : Except Fault Value :=
  match cs with
  | '\ufeff' :: _ => .error ⟨.byteOrderMark, cs.length⟩
  | _ =>
    match value (2 * cs.length + 2) (skipGap cs) with
    | .error f => .error f
    | .ok (v, rest) =>
      match skipGap rest with
      | [] => .ok v
      | rest => .error ⟨.extraData, rest.length⟩

/-- A refusal with its place: the line and the column, counted from one, and the number of
    characters before it. -/
structure ReadError where
  cause : Cause
  line : Nat
  column : Nat
  offset : Nat

/-- The place of a fault in the text it was found in. -/
def Fault.locate (f : Fault) (cs : List Char) : ReadError :=
  let offset := cs.length - f.left
  let before := cs.take offset
  { cause := f.cause
    line := before.count '\n' + 1
    column := (before.reverse.takeWhile (· != '\n')).length + 1
    offset := offset }

/-- Reads a JSON text. -/
def read (s : String) : Except ReadError Value :=
  match document s.toList with
  | .ok v => .ok v
  | .error f => .error (f.locate s.toList)

/-- What is wrong, in words. -/
def Cause.message : Cause → String
  | byteOrderMark => "Unexpected UTF-8 BOM (decode using utf-8-sig)"
  | expectedValue => "Expecting value"
  | expectedName => "Expecting property name enclosed in double quotes"
  | expectedColon => "Expecting ':' delimiter"
  | expectedComma => "Expecting ',' delimiter"
  | extraData => "Extra data"
  | controlCharacter => "Invalid control character at"
  | unterminatedText => "Unterminated string starting at"
  | badEscape => "Invalid \\escape"
  | badUnicodeEscape => "Invalid \\uXXXX escape"
  | longInteger digits => Number.tooManyDigitsMessage digits

/-- The refusal in words, with its place; an integer that is too long is reported without one. -/
def ReadError.message (e : ReadError) : String :=
  match e.cause with
  | .longInteger _ => e.cause.message
  | _ => e.cause.message ++ ": line " ++ Number.decimalText e.line ++ " column " ++
      Number.decimalText e.column ++ " (char " ++ Number.decimalText e.offset ++ ")"

end DocGraph.Json
