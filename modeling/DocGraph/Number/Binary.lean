/-! Binary floating point numbers as exact binary fractions.

    A double of 64 bits is not a number, an infinity, or a coefficient times a power of two.
    `unpack` opens a double into this form, and `nearest` finds the double closest to a fraction of
    natural numbers, a tie going to the even coefficient. All of it is arithmetic on integers. -/

namespace DocGraph.Number

/-- A coefficient times a power of two. -/
structure BinaryFraction where
  coefficient : Int
  exponent : Int

/-- What a double stands for. -/
inductive Unpacked where
  | nan
  | infinite (negative : Bool)
  | finite (negative : Bool) (mantissa : Nat) (exponent : Int)

/-- The exponent of the smallest positive double. -/
def leastExponent : Int := -1074

/-- Opens a double. -/
def unpack (x : Float) : Unpacked :=
  let bits : Nat := x.toBits.toNat
  let negative := bits / Nat.pow 2 63 == 1
  let scale : Nat := bits / Nat.pow 2 52 % Nat.pow 2 11
  let fraction : Nat := bits % Nat.pow 2 52
  if scale = 2047 then
    if fraction = 0 then .infinite negative else .nan
  else if scale = 0 then .finite negative fraction leastExponent
  else .finite negative (Nat.pow 2 52 + fraction) (leastExponent + scale - 1)

/-- The double infinity. -/
def infinity : Float := Float.ofBits 0x7ff0000000000000

/-- The double that is not a number. -/
def notANumber : Float := Float.ofBits 0x7ff8000000000000

/-- The quotient rounded to the nearest integer, a tie going to the even one. -/
def roundedQuotient (num den : Nat) : Nat :=
  let q := num / den
  let r := num % den
  if 2 * r < den ∨ (2 * r = den ∧ q % 2 = 0) then q else q + 1

/-- The quotient of `num / den` by `2 ^ exponent` as a fraction. -/
def scaleDown (num den : Nat) (exponent : Int) : Nat × Nat :=
  if 0 ≤ exponent then (num, den * Nat.pow 2 exponent.toNat)
  else (num * Nat.pow 2 (-exponent).toNat, den)

/-- The exponent at which a positive fraction has a coefficient of 53 binary digits, or the least
    one. -/
def exponentFor (num den : Nat) : Int :=
  let low := max (num.log2 - den.log2 - 53 : Int) leastExponent
  let scaled := scaleDown num den low
  if Nat.pow 2 53 ≤ scaled.1 / scaled.2 then low + 1 else low

/-- The bits of the double nearest to a fraction with a positive denominator. -/
def nearestBits (num den : Nat) : Nat :=
  if num = 0 then 0
  else
    let exponent := exponentFor num den
    let scaled := scaleDown num den exponent
    (exponent - leastExponent).toNat * Nat.pow 2 52 + roundedQuotient scaled.1 scaled.2

/-- The double nearest to a fraction; an infinity when the fraction is too large. -/
def nearest (num den : Nat) : Float :=
  let bits := nearestBits num den
  if 0x7ff0000000000000 ≤ bits then infinity else Float.ofBits bits.toUInt64

/-- The double nearest to a decimal number `digits * 10 ^ exponent`, where `digits` has at most
    `width` digits. Numbers far outside the range of doubles are not expanded. -/
def ofDecimal (digits width : Nat) (exponent : Int) : Float :=
  if digits = 0 then 0
  else if 400 < exponent then infinity
  else if width + exponent < -400 then 0
  else if 0 ≤ exponent then nearest (digits * Nat.pow 10 exponent.toNat) 1
  else nearest digits (Nat.pow 10 (-exponent).toNat)

/-- The double with the opposite sign. -/
def opposite (x : Float) : Float := -x

/-- The double nearest to an integer, unless the integer is too large for any. -/
def ofInt? (n : Int) : Option Float :=
  let x := nearest n.natAbs 1
  match unpack x with
  | .finite .. => some (if n < 0 then opposite x else x)
  | _ => none

/-- Exact comparison of two binary fractions. -/
def BinaryFraction.compare (a b : BinaryFraction) : Ordering :=
  let low := min a.exponent b.exponent
  Ord.compare (a.coefficient * Nat.pow 2 (a.exponent - low).toNat)
    (b.coefficient * Nat.pow 2 (b.exponent - low).toNat)

end DocGraph.Number
