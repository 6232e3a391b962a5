/-! Digits of natural numbers. -/

namespace DocGraph.Number

/-- The decimal digit of a number below ten. -/
def digitChar (n : Nat) : Char := Char.ofNat (48 + n)

/-- The decimal digits of `n` in front of `tail`. -/
def decimalOnto (n : Nat) (tail : List Char) : List Char :=
  if n < 10 then digitChar n :: tail
  else decimalOnto (n / 10) (digitChar (n % 10) :: tail)
termination_by n
decreasing_by omega

/-- The decimal digits of a natural number, most significant first. -/
def decimal (n : Nat) : List Char := decimalOnto n []

/-- The decimal text of an integer. -/
def decimalText (n : Int) : String :=
  String.ofList (if n < 0 then '-' :: decimal n.natAbs else decimal n.natAbs)

/-- The largest number of decimal digits of an integer that is read or written. -/
def digitLimit : Nat := 4300

/-- Whether an integer has more digits than are written. -/
def isTooLong (n : Int) : Bool := Nat.pow 10 digitLimit ≤ n.natAbs

/-- The words for an integer that is too long to be written. -/
def tooLongMessage : String :=
  "Exceeds the limit (" ++ decimalText digitLimit ++ " digits) for integer string conversion; " ++
    "use sys.set_int_max_str_digits() to increase the limit"

/-- The words for a number of digits that is too long to be read. -/
def tooManyDigitsMessage (count : Nat) : String :=
  "Exceeds the limit (" ++ decimalText digitLimit ++ " digits) for integer string conversion: " ++
    "value has " ++ decimalText count ++ " digits; " ++
    "use sys.set_int_max_str_digits() to increase the limit"

/-- The value of a digit in bases up to sixteen. -/
def digitValue? (c : Char) : Option Nat :=
  if '0' ≤ c ∧ c ≤ '9' then some (c.toNat - 48)
  else if 'a' ≤ c ∧ c ≤ 'f' then some (c.toNat - 87)
  else if 'A' ≤ c ∧ c ≤ 'F' then some (c.toNat - 55)
  else none

/-- Whether `c` is a digit of the base. -/
def isDigitOf (base : Nat) (c : Char) : Bool :=
  match digitValue? c with
  | some d => d < base
  | none => false

/-- Whether `c` is a decimal digit. -/
def isDigit (c : Char) : Bool := isDigitOf 10 c

/-- The number that the digits among `cs` spell in the base; other characters are passed over. -/
def ofDigits (base : Nat) (cs : List Char) : Nat :=
  cs.foldl (fun n c => match digitValue? c with
    | some d => n * base + d
    | none => n) 0

end DocGraph.Number
