import DocGraph.Number.Digits
import DocGraph.Text.Quoted

/-! Decoding UTF-8.

    Decoding is strict: overlong forms, surrogates and code points out of range are refused where
    they stop being the beginning of a character. A refusal names the bytes it is about. -/

namespace DocGraph.Text

/-- Why bytes are no text. -/
inductive DecodeCause where
  | badStart
  | badContinuation
  | cutShort
  deriving DecidableEq

/-- A refusal: its cause, the first byte concerned, its position, and the number of bytes. -/
structure DecodeError where
  cause : DecodeCause
  byte : UInt8
  start : Nat
  width : Nat
  deriving DecidableEq

/-- A byte in the middle or at the end of a character. -/
def isContinuation (b : UInt8) : Bool := 0x80 ≤ b && b ≤ 0xbf

/-- The six bits that a byte in the middle of a character carries. -/
def payload (b : UInt8) : Nat := b.toNat % 0x40

/-- What a first byte announces: the number of bytes after it, the bits it carries itself, and the
    bounds of the second byte. -/
structure Lead where
  more : Nat
  bits : Nat
  low : UInt8
  high : UInt8

/-- What a byte announces as the first of a character of several bytes. -/
def lead? (b : UInt8) : Option Lead :=
  if 0xc2 ≤ b ∧ b ≤ 0xdf then some ⟨1, b.toNat % 0x20, 0x80, 0xbf⟩
  else if 0xe0 ≤ b ∧ b ≤ 0xef then
    some ⟨2, b.toNat % 0x10, if b = 0xe0 then 0xa0 else 0x80, if b = 0xed then 0x9f else 0xbf⟩
  else if 0xf0 ≤ b ∧ b ≤ 0xf4 then
    some ⟨3, b.toNat % 0x08, if b = 0xf0 then 0x90 else 0x80, if b = 0xf4 then 0x8f else 0xbf⟩
  else none

/-- The number of bytes at the head of `rest` that continue a character, up to the announced
    number. -/
def continued (l : Lead) (rest : List UInt8) : Nat :=
  match rest with
  | [] => 0
  | second :: others =>
    if l.low ≤ second ∧ second ≤ l.high then
      1 + ((others.take (l.more - 1)).takeWhile isContinuation).length
    else 0

/-- The character at the head of a non-empty list of bytes and the number of bytes after its first
    one, or the cause of a refusal and the number of bytes it is about. -/
def decodeHead (b : UInt8) (rest : List UInt8) : Except (DecodeCause × Nat) (Char × Nat) :=
  if b < 0x80 then .ok (Char.ofNat b.toNat, 0)
  else match lead? b with
    | none => .error (.badStart, 1)
    | some l =>
      let found := continued l rest
      if found = l.more then
        .ok (Char.ofNat ((rest.take l.more).foldl (fun n c => n * 0x40 + payload c) l.bits), l.more)
      else if found = rest.length then .error (.cutShort, rest.length + 1)
      else .error (.badContinuation, found + 1)

/-- The characters of the bytes from position `start` on; the first `skip` bytes belong to the
    character before. -/
def decodeFrom (start skip : Nat) : List UInt8 → Except DecodeError (List Char)
  | [] => .ok []
  | b :: rest =>
    match skip with
    | k + 1 => decodeFrom (start + 1) k rest
    | 0 =>
      match decodeHead b rest with
      | .error (cause, width) => .error ⟨cause, b, start, width⟩
      | .ok (c, more) =>
        match decodeFrom (start + 1) more rest with
        | .error e => .error e
        | .ok cs => .ok (c :: cs)

/-- The text that bytes encode. -/
def decode (bytes : List UInt8) : Except DecodeError (List Char) := decodeFrom 0 0 bytes

/-- What is wrong, in words. -/
def DecodeCause.message : DecodeCause → String
  | badStart => "invalid start byte"
  | badContinuation => "invalid continuation byte"
  | cutShort => "unexpected end of data"

/-- The refusal in words. -/
def DecodeError.message (e : DecodeError) : String :=
  "'utf-8' codec can't decode " ++
    (if e.width = 1 then
      "byte 0x" ++ String.ofList (hexDigits 2 e.byte.toNat) ++ " in position " ++
        Number.decimalText e.start
    else
      "bytes in position " ++ Number.decimalText e.start ++ "-" ++
        Number.decimalText (e.start + e.width - 1 : Nat)) ++
    ": " ++ e.cause.message

end DocGraph.Text
