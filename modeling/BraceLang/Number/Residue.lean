import BraceLang.Number.Binary64

/-!
# Residues of numbers

Integers and binary64 numbers have residues modulo the prime `2 ^ 61 - 1`, in which equal numbers
agree whatever their form. A number and its negative have opposite residues, and minus one has
the residue of minus two.
-/

namespace BraceLang

/-- The modulus of residues, a prime. -/
def residueModulus : Nat := Nat.pow 2 61 - 1

/-- A residue with a sign. -/
def signedResidue (negative : Bool) (magnitude : Nat) : Int :=
  let residue : Int := if negative then -magnitude else magnitude
  if residue = -1 then -2 else residue

/-- The residue of an integer. -/
def integerResidue (number : Int) : Int :=
  signedResidue (decide (number < 0)) (number.natAbs % residueModulus)

/-- The residue of a binary64 number. Two to the power of 61 counts as one, so that every power of
two has a residue. -/
def Binary64.residue : Binary64 → Int
  | .finite negative significand exponent =>
    signedResidue negative (significand * Nat.pow 2 (exponent % 61).toNat % residueModulus)
  | .infinite negative => if negative then -314159 else 314159
  | .nan => 0

end BraceLang
