/-!
# Base64

Bytes are written with 64 characters, four for each three bytes. Characters outside the alphabet
are passed over. Padding ends the text where it completes a group of four; other padding is passed
over too.
-/

namespace BraceLang.Text.Base64

/-- The value of a character of the alphabet. -/
def sextet? (c : Char) : Option Nat :=
  if c.isUpper then some (c.toNat - 65)
  else if c.isLower then some (c.toNat - 71)
  else if c.isDigit then some (c.toNat + 4)
  else if c = '+' then some 62
  else if c = '/' then some 63
  else none

/-- The bytes of a group of two to four sextets; bits that fill no byte are dropped. -/
def groupBytes : List Nat → List Nat
  | a :: b :: rest =>
    (4 * a + b / 16) :: match rest with
      | [] => []
      | c :: rest =>
        (16 * (b % 16) + c / 4) :: match rest with
          | [] => []
          | d :: _ => [64 * (c % 4) + d]
  | _ => []

/-- Reads on behind the first sextets of a group and so many padding marks. -/
def decodeFrom : List Nat → Nat → List Char → Option (List Nat)
  | group, _, [] => if group.isEmpty then some [] else none
  | group, marks, c :: rest =>
    if c = '=' then
      if group.length < 2 then decodeFrom group marks rest
      else if group.length + marks + 1 < 4 then decodeFrom group (marks + 1) rest
      else some (groupBytes group)
    else match sextet? c with
      | none => decodeFrom group marks rest
      | some sextet =>
        if group.length < 3 then decodeFrom (group ++ [sextet]) 0 rest
        else (decodeFrom [] 0 rest).map (groupBytes (group ++ [sextet]) ++ ·)

/-- The bytes of a text, unless its last group is not complete. -/
def decode? (text : List Char) : Option (List Nat) := decodeFrom [] 0 text

end BraceLang.Text.Base64
