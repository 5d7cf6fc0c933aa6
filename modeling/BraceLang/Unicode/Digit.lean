import BraceLang.Unicode.Alphanumeric

/-!
# Digits

The characters that stand for a single digit: decimal digits of any script, superscripts and
circled digits (`٣`, `²`, `①`), but no fractions and no numerals of larger value. The table
follows Unicode 14.
-/

namespace BraceLang.Unicode

/-- The digits beyond ASCII. -/
def digitRuns : List (Nat × Nat) :=
  [(178, 179), (185, 185), (1632, 1641), (1776, 1785), (1984, 1993), (2406, 2415), (2534, 2543),
   (2662, 2671), (2790, 2799), (2918, 2927), (3046, 3055), (3174, 3183), (3302, 3311), (3430, 3439),
   (3558, 3567), (3664, 3673), (3792, 3801), (3872, 3881), (4160, 4169), (4240, 4249), (4969, 4977),
   (6112, 6121), (6160, 6169), (6470, 6479), (6608, 6618), (6784, 6793), (6800, 6809), (6992, 7001),
   (7088, 7097), (7232, 7241), (7248, 7257), (8304, 8304), (8308, 8313), (8320, 8329), (9312, 9320),
   (9332, 9340), (9352, 9360), (9450, 9450), (9461, 9469), (9471, 9471), (10102, 10110),
   (10112, 10120), (10122, 10130), (42528, 42537), (43216, 43225), (43264, 43273), (43472, 43481),
   (43504, 43513), (43600, 43609), (44016, 44025), (65296, 65305), (66720, 66729), (68160, 68163),
   (68912, 68921), (69216, 69224), (69714, 69722), (69734, 69743), (69872, 69881), (69942, 69951),
   (70096, 70105), (70384, 70393), (70736, 70745), (70864, 70873), (71248, 71257), (71360, 71369),
   (71472, 71481), (71904, 71913), (72016, 72025), (72784, 72793), (73040, 73049), (73120, 73129),
   (92768, 92777), (92864, 92873), (93008, 93017), (120782, 120831), (123200, 123209),
   (123632, 123641), (125264, 125273), (127232, 127242), (130032, 130041)]

/-- A digit of any script, in any style. -/
def isDigit (c : Char) : Bool :=
  if c.toNat < 128 then c.isDigit else inRuns digitRuns c.toNat

/-- The ten ASCII digits are digits. -/
theorem isDigit_of_isDigit {c : Char} (hascii : c.toNat < 128) (hclass : c.isDigit = true) :
    isDigit c = true := by
  simp [isDigit, hascii, hclass]

/-- Digits are letters or numerals. -/
theorem isAlphanumeric_of_isDigit {c : Char} (hdigit : isDigit c = true) :
    isAlphanumeric c = true := by
  unfold isDigit at hdigit
  unfold isAlphanumeric
  split at hdigit
  · next hascii =>
    rw [if_pos hascii, Char.isAlphanum, hdigit, Bool.or_true]
  · next hbeyond =>
    rw [if_neg hbeyond]
    exact inRuns_of_within (by decide +kernel) hdigit

end BraceLang.Unicode
