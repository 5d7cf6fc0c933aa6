import BraceLang.Number.Binary64

/-!
# Shortest decimals

A binary64 number is written with the fewest decimal digits that are read back as that number;
among those the nearest to its value is taken, and of two equally near the one with an even last
digit.
-/

namespace BraceLang

namespace Binary64

/-- The reals that are rounded to a finite number, between two ends over a common denominator,
with the number itself. The ends belong to it when the significand is even. -/
structure RoundingRange where
  low : Nat
  value : Nat
  high : Nat
  denominator : Nat
  closed : Bool

/-- The reals that are rounded to `significand * 2 ^ exponent`. Below a power of two the next
number is only half as far. -/
def roundingRange (significand : Nat) (exponent : Int) : RoundingRange :=
  let scale := Nat.pow 2 exponent.toNat
  let below := if significand = Nat.pow 2 52 ∧ minExponent < exponent then 1 else 2
  { low := (4 * significand - below) * scale
    value := 4 * significand * scale
    high := (4 * significand + 2) * scale
    denominator := 4 * Nat.pow 2 (-exponent).toNat
    closed := significand % 2 == 0 }

/-- Whether `numerator / denominator` is rounded to the number of a range. -/
def RoundingRange.contains (range : RoundingRange) (numerator denominator : Nat) : Bool :=
  let reduced := numerator * range.denominator
  if range.closed then
    range.low * denominator ≤ reduced && reduced ≤ range.high * denominator
  else
    range.low * denominator < reduced && reduced < range.high * denominator

/-- The point of the grid of powers `10 ^ exponent` that stands for the number of a range: the one
of its two neighbours on the grid that reads back and is nearer. -/
def RoundingRange.nearestOn (range : RoundingRange) (exponent : Int) : Option Nat :=
  let up := Nat.pow 10 exponent.toNat
  let down := Nat.pow 10 (-exponent).toNat
  let above := range.value * down
  let unit := range.denominator * up
  let left := above / unit
  let reads := fun point => range.contains (point * up) down
  match reads left, reads (left + 1) with
  | true, true =>
    let twice := 2 * (above % unit)
    some (if unit < twice ∨ (twice = unit ∧ left % 2 = 1) then left + 1 else left)
  | true, false => some left
  | false, true => some (left + 1)
  | false, false => none

/-- The least `k` with the number of a range below `10 ^ k`. -/
def RoundingRange.magnitude (range : RoundingRange) : Int :=
  Decimal.digitCount (range.value * Nat.pow 10 324 / range.denominator) - 324

/-- The first decimal that reads back, from one digit to seventeen. -/
def RoundingRange.shortest (range : RoundingRange) : Decimal :=
  let tried := (List.range 17).findSome? fun (extra : Nat) =>
    let exponent := range.magnitude - (extra + 1)
    (range.nearestOn exponent).map fun digits => Decimal.mk digits exponent
  (tried.getD ⟨0, 0⟩).trimmed 17

/-- The text of a finite number without its sign. -/
def magnitudeText (significand : Nat) (exponent : Int) : List Char :=
  if significand = 0 then ['0', '.', '0']
  else (roundingRange significand exponent).shortest.text

/-- The text of a number. -/
def text : Binary64 → String
  | .finite negative significand exponent =>
    String.ofList ((if negative then ['-'] else []) ++ magnitudeText significand exponent)
  | .infinite negative => if negative then "-inf" else "inf"
  | .nan => "nan"

end Binary64

end BraceLang
