import DocGraph.Number.Digits
import DocGraph.Number.Shortest

/-! The text of doubles.

    A double is written with its shortest digits: positionally while its point stands close to
    them, with an exponent of at least two digits otherwise. -/

namespace DocGraph.Number

/-- How the digits of a double are laid out. -/
structure Layout where
  /-- The places of the decimal point, counted from the first digit, that are written
      positionally. -/
  leastPoint : Int
  mostPoint : Int
  /-- The least number of digits in an exponent. -/
  exponentWidth : Nat
  /-- Whether a positional whole number ends in a point and a zero. -/
  pointZero : Bool

/-- Points from four places before the first digit to sixteen after it are written positionally,
    and a whole number is marked by a point and a zero. -/
def plainLayout : Layout := ⟨-3, 16, 2, true⟩

/-- As `plainLayout`, without the mark on whole numbers: the parts of a complex number. -/
def partLayout : Layout := ⟨-3, 16, 2, false⟩

/-- Digits with the point after the first `point` of them. -/
def Layout.positional (layout : Layout) (digits : List Char) (point : Int) : List Char :=
  if point ≤ 0 then '0' :: '.' :: (List.replicate (-point).toNat '0' ++ digits)
  else
    let whole := point.toNat
    if digits.length ≤ whole then
      digits ++ List.replicate (whole - digits.length) '0' ++
        (if layout.pointZero then ['.', '0'] else [])
    else digits.take whole ++ '.' :: digits.drop whole

/-- Digits with the point after the first one and the exponent behind them. -/
def Layout.scientific (layout : Layout) (digits : List Char) (point : Int) : List Char :=
  let exponent := point - 1
  let size := decimal exponent.natAbs
  let mantissa := match digits with
    | first :: second :: rest => first :: '.' :: second :: rest
    | other => other
  mantissa ++ 'e' :: (if exponent < 0 then '-' else '+') ::
    (List.replicate (layout.exponentWidth - size.length) '0' ++ size)

/-- The text of a positive decimal `d * 10 ^ k`. -/
def Layout.decimalChars (layout : Layout) (d : Nat) (k : Int) : List Char :=
  let digits := decimal d
  let point := digits.length + k
  if layout.leastPoint ≤ point ∧ point ≤ layout.mostPoint then layout.positional digits point
  else layout.scientific digits point

/-- The text of a double without its sign. -/
def Layout.unsigned (layout : Layout) (x : Float) : List Char :=
  match unpack x with
  | .nan => "nan".toList
  | .infinite _ => "inf".toList
  | .finite _ 0 _ => if layout.pointZero then ['0', '.', '0'] else ['0']
  | .finite _ m q =>
    let (d, k) := shortest m q
    layout.decimalChars d k

/-- Whether the text of a double begins with a minus sign. -/
def isNegative (x : Float) : Bool :=
  match unpack x with
  | .nan => false
  | .infinite negative => negative
  | .finite negative _ _ => negative

/-- The text of a double. -/
def Layout.chars (layout : Layout) (x : Float) : List Char :=
  if isNegative x then '-' :: layout.unsigned x else layout.unsigned x

/-- The text of a double in the plain layout. -/
def floatText (x : Float) : String := String.ofList (plainLayout.chars x)

/-- The text of a complex number: the imaginary part alone when the real part is the positive zero,
    else both parts in parentheses. -/
def complexText (re im : Float) : String :=
  let imaginary := partLayout.chars im ++ ['j']
  if re == 0 && !isNegative re then String.ofList imaginary
  else
    let sign := if isNegative im then [] else ['+']
    String.ofList ('(' :: (partLayout.chars re ++ sign ++ imaginary ++ [')']))

end DocGraph.Number
