/-!
# Decimals

A decimal is a natural number of units of a power of ten. Decimals from `10 ^ -4` below `10 ^ 16`
are written out, with at least one digit behind the point, all others with an exponent of at least
two digits.
-/

namespace BraceLang

/-- The decimal `digits * 10 ^ exponent`. -/
structure Decimal where
  digits : Nat
  exponent : Int
  deriving DecidableEq, Repr

namespace Decimal

/-- The count of decimal digits of a number. -/
def digitCount (number : Nat) : Nat := (Nat.toDigits 10 number).length

/-- The same decimal with up to `places` zeros at the end of its digits cut off. -/
def trimmed (decimal : Decimal) : Nat → Decimal
  | 0 => decimal
  | places + 1 =>
    if decimal.digits ≠ 0 ∧ decimal.digits % 10 = 0 then
      trimmed ⟨decimal.digits / 10, decimal.exponent + 1⟩ places
    else decimal

/-- The text of a decimal that is not zero. -/
def text (decimal : Decimal) : List Char :=
  let digits := Nat.toDigits 10 decimal.digits
  let point := digits.length + decimal.exponent
  if -4 < point ∧ point ≤ 16 then
    if point ≤ 0 then
      '0' :: '.' :: (List.replicate (-point).toNat '0' ++ digits)
    else if digits.length ≤ point then
      digits ++ List.replicate decimal.exponent.toNat '0' ++ ['.', '0']
    else
      digits.take point.toNat ++ '.' :: digits.drop point.toNat
  else
    let power := point - 1
    let mantissa := match digits with
      | first :: more@(_ :: _) => first :: '.' :: more
      | single => single
    let places := Nat.toDigits 10 power.natAbs
    mantissa ++ 'e' :: (if power < 0 then '-' else '+') ::
      (List.replicate (2 - places.length) '0' ++ places)

end Decimal

end BraceLang
