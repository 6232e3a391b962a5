import DocGraph.Text.Printable

/-! Quoted forms of text and bytes.

    A text stands between single quotes, or between double quotes when it holds a single quote and
    no double one. The backslash, the chosen quote, tab, line feed and carriage return are escaped
    by a letter or themselves, other unprintable characters by their code point. -/

namespace DocGraph.Text

/-- The hexadecimal digit of a number below sixteen. -/
def hexDigit (n : Nat) : Char :=
  if n < 10 then Char.ofNat (48 + n) else Char.ofNat (87 + n)

/-- The last `width` hexadecimal digits of `n`. -/
def hexDigits : Nat → Nat → List Char
  | 0, _ => []
  | width + 1, n => hexDigits width (n / 16) ++ [hexDigit (n % 16)]

/-- The quote that a text with these characters is written in. -/
def quoteFor (hasSingle hasDouble : Bool) : Char :=
  if hasSingle && !hasDouble then '"' else '\''

/-- The code point of an unprintable character behind the mark for its width. -/
def escapeCode (n : Nat) : List Char :=
  if n < 0x100 then '\\' :: 'x' :: hexDigits 2 n
  else if n < 0x10000 then '\\' :: 'u' :: hexDigits 4 n
  else '\\' :: 'U' :: hexDigits 8 n

/-- How one character is written between the given quotes. -/
def escapeChar (quote c : Char) : List Char :=
  if c = quote ∨ c = '\\' then ['\\', c]
  else if c = '\n' then ['\\', 'n']
  else if c = '\r' then ['\\', 'r']
  else if c = '\t' then ['\\', 't']
  else if isPrintable c then [c]
  else escapeCode c.toNat

/-- The quoted form of a text. -/
def quotedChars (cs : List Char) : List Char :=
  let quote := quoteFor (cs.contains '\'') (cs.contains '"')
  quote :: (cs.flatMap (escapeChar quote) ++ [quote])

/-- The quoted form of a string. -/
def quoted (s : String) : String := String.ofList (quotedChars s.toList)

/-- How one byte is written between the given quotes: the characters above ASCII are escaped. -/
def escapeByte (quote : Char) (b : UInt8) : List Char :=
  if 0x7f ≤ b then escapeCode b.toNat else escapeChar quote (Char.ofNat b.toNat)

/-- The quoted form of a byte string. -/
def quotedBytes (bs : List UInt8) : String :=
  let quote := quoteFor (bs.contains 39) (bs.contains 34)
  String.ofList ('b' :: quote :: (bs.flatMap (escapeByte quote) ++ [quote]))

end DocGraph.Text
