import BraceLang.Number.Decimal

/-!
# Binary64 numbers

Reals of the language are kept in the IEEE 754 format binary64. A finite number is a significand
below `2 ^ 53` times a power of two not below `2 ^ -1074`; the significand has its full 53 bits
unless the power is the least one. A decimal is rounded to the nearest such number, a tie to the
even significand, and overflows to an infinity.
-/

namespace BraceLang

/-- A number in the format binary64. -/
inductive Binary64 where
  /-- The number `significand * 2 ^ exponent`, negated if so marked. -/
  | finite (negative : Bool) (significand : Nat) (exponent : Int)
  | infinite (negative : Bool)
  | nan
  deriving DecidableEq, Repr

namespace Binary64

/-- The least exponent of two. -/
def minExponent : Int := -1074

/-- The greatest exponent of two. -/
def maxExponent : Int := 971

/-- The zero of a sign. -/
def zero (negative : Bool) : Binary64 := .finite negative 0 minExponent

/-- The quotient rounded to an integer, a tie to the even one. -/
def divideToEven (numerator denominator : Nat) : Nat :=
  let quotient := numerator / denominator
  let twice := 2 * (numerator % denominator)
  if denominator < twice ∨ (twice = denominator ∧ quotient % 2 = 1) then quotient + 1 else quotient

/-- The quotient `numerator / (denominator * 2 ^ exponent)` as two natural numbers. -/
def scaled (numerator denominator : Nat) (exponent : Int) : Nat × Nat :=
  (numerator * Nat.pow 2 (-exponent).toNat, denominator * Nat.pow 2 exponent.toNat)

/-- The exponent at which a positive quotient has a significand of 53 bits, or the least one. -/
def exponentFor (numerator denominator : Nat) : Int :=
  let low : Int := numerator.log2 - denominator.log2 - 53
  let (above, below) := scaled numerator denominator low
  max minExponent (if Nat.pow 2 53 ≤ above / below then low + 1 else low)

/-- The binary64 number nearest to `numerator / denominator`. -/
def ofQuotient (negative : Bool) (numerator denominator : Nat) : Binary64 :=
  if numerator = 0 then zero negative
  else
    let exponent := exponentFor numerator denominator
    let (above, below) := scaled numerator denominator exponent
    let rounded := divideToEven above below
    let (significand, exponent) :=
      if rounded = Nat.pow 2 53 then (Nat.pow 2 52, exponent + 1) else (rounded, exponent)
    if maxExponent < exponent then .infinite negative else .finite negative significand exponent

/-- The binary64 number nearest to a decimal. Powers of ten so great or small that the result is an
infinity or a zero are not computed. -/
def ofDecimal (negative : Bool) (decimal : Decimal) : Binary64 :=
  if decimal.digits = 0 then zero negative
  else
    let magnitude := Decimal.digitCount decimal.digits + decimal.exponent
    if 310 < magnitude then .infinite negative
    else if magnitude < -326 then zero negative
    else ofQuotient negative (decimal.digits * Nat.pow 10 decimal.exponent.toNat)
      (Nat.pow 10 (-decimal.exponent).toNat)

/-- The same number with the other sign. -/
def neg : Binary64 → Binary64
  | .finite negative significand exponent => .finite (!negative) significand exponent
  | .infinite negative => .infinite (!negative)
  | .nan => .nan

/-- Whether a number has the value of an integer. -/
def equalsInt : Binary64 → Int → Bool
  | .finite negative significand exponent, n =>
    let (above, below) := scaled significand 1 (-exponent)
    n.natAbs * below == above && (n == 0 || (n < 0) == negative)
  | _, _ => false

end Binary64

end BraceLang
