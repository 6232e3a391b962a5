import DocGraph.Number.Binary
import DocGraph.Text.Basic
import DocGraph.Yaml.Error

/-! The data in a settings text, and what plain scalars stand for.

    A plain scalar can be a truth value, a number, null or a date; every other one is a text. -/

namespace DocGraph.Yaml

/-- A datum. -/
inductive Datum where
  | null
  | bool (b : Bool)
  | int (n : Int)
  | float (x : Float)
  | str (s : String)
  /-- A date, with or without a time. -/
  | date
  | list (items : List Datum)
  /-- Entries in order; of entries with one key the last counts. -/
  | mapping (entries : List (Datum × Datum))
  deriving Inhabited

namespace Datum

/-! ### Words -/

/-- The truth value of a word. -/
def ofWord? (s : String) : Option Bool :=
  if ["yes", "Yes", "YES", "true", "True", "TRUE", "on", "On", "ON"].contains s then some true
  else if ["no", "No", "NO", "false", "False", "FALSE", "off", "Off", "OFF"].contains s then
    some false
  else none

/-- Whether a scalar stands for null. -/
def isNullWord (s : String) : Bool := ["", "~", "null", "Null", "NULL"].contains s

/-! ### Integers -/

/-- A sign, and what follows it. -/
def signed : List Char → Bool × List Char
  | '-' :: rest => (true, rest)
  | '+' :: rest => (false, rest)
  | cs => (false, cs)

/-- Whether a character is a digit of a base or a low line between digits. -/
def isLooseDigit (base : Nat) (c : Char) : Bool := Number.isDigitOf base c || c = '_'

/-- Whether a piece behind a colon counts sixtieths: a number below sixty. -/
def isSixtieth (cs : List Char) : Bool :=
  match cs with
  | [d] => Number.isDigit d
  | [t, d] => Number.isDigitOf 6 t && Number.isDigit d
  | _ => false

/-- Whether the text starts with a digit other than zero, with digits and low lines behind it. -/
def isPositive : List Char → Bool
  | d :: rest => Number.isDigit d && d ≠ '0' && rest.all (isLooseDigit 10)
  | [] => false

/-- The number that decimal digits spell, unless there are too many of them. -/
def ofDecimalDigits (cs : List Char) : Except Error Nat :=
  let count := (cs.filter Number.isDigit).length
  if Number.digitLimit < count then .error (.longInteger count) else .ok (Number.ofDigits 10 cs)

/-- The number that pieces spell in base sixty. -/
def ofSixtieths (first : Nat) (more : List (List Char)) : Nat :=
  more.foldl (fun n p => n * 60 + Number.ofDigits 10 p) first

/-- The number that digits spell in a base; there must be one. -/
def based (base : Nat) (cs : List Char) : Except Error Nat :=
  if cs.all (· = '_') then .error (.noDigits base) else .ok (Number.ofDigits base cs)

/-- The natural number that a plain scalar stands for. -/
def natOf? (cs : List Char) : Option (Except Error Nat) :=
  match cs with
  | '0' :: 'b' :: rest =>
    if !rest.isEmpty && rest.all (isLooseDigit 2) then some (based 2 rest) else none
  | '0' :: 'x' :: rest =>
    if !rest.isEmpty && rest.all (isLooseDigit 16) then some (based 16 rest) else none
  | '0' :: rest =>
    if rest.all (isLooseDigit 8) then some (.ok (Number.ofDigits 8 rest)) else none
  | _ => match Text.splitOn ':' cs with
    | [] => none
    | first :: more =>
      if isPositive first && more.all isSixtieth then
        some ((ofDecimalDigits first).map fun n => ofSixtieths n more)
      else none

/-- The integer that a plain scalar stands for. -/
def intOf? (cs : List Char) : Option (Except Error Int) :=
  let (negative, body) := signed cs
  (natOf? body).map fun r => r.map fun n => if negative then -(n : Int) else n

/-! ### Floats -/

/-- The double that digits before and behind a point spell, times a power of ten. -/
def decimalFloat (whole part : List Char) (exponent : Int) : Float :=
  let digits := (whole ++ part).filter Number.isDigit
  Number.ofDecimal (Number.ofDigits 10 digits) digits.length
    (exponent - (part.filter Number.isDigit).length)

/-- A power of ten behind a number: its mark, its sign and its digits. -/
def exponentOf? : List Char → Option Int
  | [] => some 0
  | e :: sign :: digits =>
    if (e = 'e' || e = 'E') && (sign = '+' || sign = '-') && !digits.isEmpty &&
        digits.all Number.isDigit then
      let n : Int := Number.ofDigits 10 digits
      some (if sign = '-' then -n else n)
    else none
  | _ => none

/-- Adds up pieces, the last one first, each times a power of sixty. A power that is too large for
    a double is refused. -/
def sixtiethSum (power : Nat) (sum : Float) : List Float → Except Error Float
  | [] => .ok sum
  | p :: ps => match Number.ofInt? power with
    | none => .error .overflow
    | some x => sixtiethSum (power * 60) (sum + p * x) ps

/-- The number that pieces and a last one with a point spell in base sixty. -/
def sixtiethFloat (pieces : List Float) : Except Error Float := sixtiethSum 1 0 pieces.reverse

/-- A number with a point and perhaps a power of ten. -/
def pointFloat? (cs : List Char) : Option Float :=
  let whole := cs.takeWhile (isLooseDigit 10)
  match whole.head?, cs.dropWhile (isLooseDigit 10) with
  | some d, '.' :: rest =>
    let part := rest.takeWhile (isLooseDigit 10)
    if Number.isDigit d then
      (exponentOf? (rest.dropWhile (isLooseDigit 10))).map (decimalFloat whole part)
    else none
  | _, _ => none

/-- A number in base sixty with a point. -/
def timeFloat? (cs : List Char) : Option (Except Error Float) :=
  match Text.splitOn ':' cs with
  | first :: second :: more =>
    let (last, point) := Text.cut '.' ((second :: more).getLastD [])
    let middle := (second :: more).dropLast
    match first.head?, point with
    | some d, some part =>
      if Number.isDigit d && first.all (isLooseDigit 10) && middle.all isSixtieth &&
          isSixtieth last && part.all (isLooseDigit 10) then
        some (sixtiethFloat ((first :: middle).map (fun p => decimalFloat p [] 0) ++
          [decimalFloat last part 0]))
      else none
    | _, _ => none
  | _ => none

/-- A number that starts with a point. It takes no sign. -/
def bareFloat? : List Char → Option Float
  | '.' :: d :: rest =>
    let part := rest.takeWhile (isLooseDigit 10)
    if Number.isDigit d then
      (exponentOf? (rest.dropWhile (isLooseDigit 10))).map (decimalFloat [] (d :: part))
    else none
  | _ => none

/-- The double that a plain scalar stands for. -/
def floatOf? (cs : List Char) : Option (Except Error Float) :=
  let (negative, body) := signed cs
  let sign (x : Float) : Float := if negative then Number.opposite x else x
  if [".nan", ".NaN", ".NAN"].contains (String.ofList cs) then some (.ok Number.notANumber)
  else if [".inf", ".Inf", ".INF"].contains (String.ofList body) then
    some (.ok (sign Number.infinity))
  else match pointFloat? body, timeFloat? body with
    | some x, _ => some (.ok (sign x))
    | none, some r => some (r.map sign)
    | none, none => (bareFloat? cs).map .ok

/-! ### Dates -/

/-- A run of `least` to `most` digits and what follows it. -/
def digitRun? (least most : Nat) (cs : List Char) : Option (Nat × List Char) :=
  let run := (cs.take most).takeWhile Number.isDigit
  if run.length < least then none else some (Number.ofDigits 10 run, cs.drop run.length)

/-- What follows a character that has to stand here. -/
def after? (c : Char) : List Char → Option (List Char)
  | d :: rest => if d = c then some rest else none
  | [] => none

/-- The minutes of a time zone behind its hours. -/
def zoneMinutes? : List Char → Option Nat
  | [] => some 0
  | cs => do
    let (minutes, rest) ← digitRun? 2 2 (← after? ':' cs)
    if rest.isEmpty then some minutes else none

/-- The minutes that a time zone is ahead, where nothing or the zone, perhaps behind blanks, stands
    here. -/
def zoneOf? (cs : List Char) : Option Int :=
  match cs.dropWhile fun c => c = ' ' || c = '\t' with
  | [] => if cs.isEmpty then some 0 else none
  | ['Z'] => some 0
  | sign :: rest => do
    let (hours, more) ← digitRun? 1 2 rest
    let minutes : Int := 60 * hours + (← zoneMinutes? more)
    if sign = '+' then some minutes else if sign = '-' then some (-minutes) else none

/-- A date and a time in numbers, and the minutes that its time zone is ahead. -/
structure Moment where
  year : Nat
  month : Nat
  day : Nat
  hour : Nat
  minute : Nat
  second : Nat
  offset : Int
  deriving DecidableEq

/-- A date without a time. -/
def dateOf? (cs : List Char) : Option Moment := do
  let (year, rest) ← digitRun? 4 4 cs
  let (month, rest) ← digitRun? 2 2 (← after? '-' rest)
  let (day, rest) ← digitRun? 2 2 (← after? '-' rest)
  if rest.isEmpty then some ⟨year, month, day, 0, 0, 0, 0⟩ else none

/-- What follows the mark between a date and a time. -/
def afterDate? : List Char → Option (List Char)
  | 'T' :: rest => some rest
  | 't' :: rest => some rest
  | c :: rest =>
    if c = ' ' || c = '\t' then some (rest.dropWhile fun c => c = ' ' || c = '\t') else none
  | [] => none

/-- A date with a time. -/
def timeOf? (cs : List Char) : Option Moment := do
  let (year, rest) ← digitRun? 4 4 cs
  let (month, rest) ← digitRun? 1 2 (← after? '-' rest)
  let (day, rest) ← digitRun? 1 2 (← after? '-' rest)
  let (hour, rest) ← digitRun? 1 2 (← afterDate? rest)
  let (minute, rest) ← digitRun? 2 2 (← after? ':' rest)
  let (second, rest) ← digitRun? 2 2 (← after? ':' rest)
  let rest := match rest with
    | '.' :: more => more.dropWhile Number.isDigit
    | more => more
  return ⟨year, month, day, hour, minute, second, ← zoneOf? rest⟩

/-- Whether a year has a day more. -/
def isLeap (year : Nat) : Bool := year % 4 = 0 && (year % 100 ≠ 0 || year % 400 = 0)

/-- The number of days of a month. -/
def daysIn (year month : Nat) : Nat :=
  if month = 2 then if isLeap year then 29 else 28
  else if [4, 6, 9, 11].contains month then 30 else 31

/-- Checks that a date and a time exist. -/
def check (m : Moment) : Except Error Datum :=
  if 1440 ≤ m.offset.natAbs then .error (.offsetOutOfRange m.offset)
  else if m.year = 0 then .error (.yearOutOfRange m.year)
  else if m.month = 0 || 12 < m.month then .error .monthOutOfRange
  else if m.day = 0 || daysIn m.year m.month < m.day then .error .dayOutOfRange
  else if 23 < m.hour then .error .hourOutOfRange
  else if 59 < m.minute then .error .minuteOutOfRange
  else if 59 < m.second then .error .secondOutOfRange
  else .ok .date

/-! ### Scalars -/

/-- What merges another mapping into the one it is a key of. -/
def mergeWord : String := "<<"

/-- A plain scalar that has a meaning only as a key. -/
def defaultWord : String := "="

/-- What a plain scalar stands for. -/
def ofPlain (s : String) : Except Error Datum :=
  let cs := s.toList
  if s = mergeWord || s = defaultWord then .error .malformed
  else if isNullWord s then .ok .null
  else match ofWord? s, floatOf? cs, intOf? cs with
    | some b, _, _ => .ok (.bool b)
    | none, some r, _ => r.map .float
    | none, none, some r => r.map .int
    | none, none, none => match dateOf? cs, timeOf? cs with
      | some m, _ => check m
      | none, some m => check m
      | none, none => .ok (.str s)

end Datum

end DocGraph.Yaml
