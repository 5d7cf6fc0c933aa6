import BraceLang.Number.Binary64

/-!
# Sums and products of binary64 numbers

The exact sum or product of two finite numbers is rounded once. Infinities and the undefined
number follow IEEE 754.
-/

namespace BraceLang.Binary64

/-- The number nearest to `significand * 2 ^ exponent`. -/
def ofScaled (negative : Bool) (significand : Nat) (exponent : Int) : Binary64 :=
  ofQuotient negative (significand * Nat.pow 2 exponent.toNat) (Nat.pow 2 (-exponent).toNat)

/-- A significand with its sign, in units of a lesser power of two. -/
def inUnits (negative : Bool) (significand : Nat) (exponent least : Int) : Int :=
  let units : Int := significand * Nat.pow 2 (exponent - least).toNat
  if negative then -units else units

/-- The sum of two numbers; a sum of zero is negative only if both numbers are. -/
def add : Binary64 → Binary64 → Binary64
  | .nan, _ | _, .nan => .nan
  | .infinite left, .infinite right => if left = right then .infinite left else .nan
  | .infinite negative, .finite .. | .finite .., .infinite negative => .infinite negative
  | .finite left m j, .finite right n k =>
    let least := min j k
    let sum := inUnits left m j least + inUnits right n k least
    if sum = 0 then zero (left && right) else ofScaled (decide (sum < 0)) sum.natAbs least

/-- The product of two numbers. -/
def mul : Binary64 → Binary64 → Binary64
  | .nan, _ | _, .nan => .nan
  | .infinite left, .infinite right => .infinite (left != right)
  | .infinite left, .finite right n _ | .finite right n _, .infinite left =>
    if n = 0 then .nan else .infinite (left != right)
  | .finite left m j, .finite right n k => ofScaled (left != right) (m * n) (j + k)

/-- The number nearest to a natural number, if that is finite. -/
def ofNat? (number : Nat) : Option Binary64 :=
  match ofQuotient false number 1 with
  | .finite negative significand exponent => some (.finite negative significand exponent)
  | _ => none

end BraceLang.Binary64
