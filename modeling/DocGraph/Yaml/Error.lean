import DocGraph.Number.Digits

/-! Why a settings text cannot be read.

    Most texts are refused because they are malformed. In a well-formed text a scalar can still
    stand for something that does not exist: a date, a number without digits, a character. -/

namespace DocGraph.Yaml

/-- Why a text cannot be read. -/
inductive Error where
  | malformed
  /-- An escape stands for no character. -/
  | noCharacter
  /-- A number has a base and no digits. -/
  | noDigits (base : Nat)
  /-- A number has more digits than are read. -/
  | longInteger (digits : Nat)
  /-- A number is too large to be computed with. -/
  | overflow
  /-- A time zone is a day or more away. -/
  | offsetOutOfRange (minutes : Int)
  | yearOutOfRange (year : Nat)
  | monthOutOfRange
  | dayOutOfRange
  | hourOutOfRange
  | minuteOutOfRange
  | secondOutOfRange
  deriving DecidableEq

/-- A span of minutes in whole days, and seconds behind them. -/
def spanText (minutes : Int) : String :=
  let seconds := minutes.emod 1440 * 60
  "datetime.timedelta(days=" ++ Number.decimalText (minutes.ediv 1440) ++
    (if seconds = 0 then "" else ", seconds=" ++ Number.decimalText seconds) ++ ")"

/-- The refusal in words. -/
def Error.message : Error → String
  | malformed => "malformed"
  | noCharacter => "chr() arg not in range(0x110000)"
  | noDigits base => "invalid literal for int() with base " ++ Number.decimalText base ++ ": ''"
  | longInteger digits => Number.tooManyDigitsMessage digits
  | overflow => "number too large"
  | offsetOutOfRange minutes =>
    "offset must be a timedelta strictly between -timedelta(hours=24) and " ++
      "timedelta(hours=24), not " ++ spanText minutes ++ "."
  | yearOutOfRange year => "year " ++ Number.decimalText year ++ " is out of range"
  | monthOutOfRange => "month must be in 1..12"
  | dayOutOfRange => "day is out of range for month"
  | hourOutOfRange => "hour must be in 0..23"
  | minuteOutOfRange => "minute must be in 0..59"
  | secondOutOfRange => "second must be in 0..59"

/-- A result, where having none means that the text is malformed. -/
def orMalformed {α : Type} : Option α → Except Error α
  | some a => .ok a
  | none => .error .malformed

end DocGraph.Yaml
