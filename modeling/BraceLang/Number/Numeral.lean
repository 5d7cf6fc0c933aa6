import BraceLang.Number.Shortest
import BraceLang.Text.Quoted
import BraceLang.Unicode.Blank
import BraceLang.Unicode.Decimal

/-!
# Numerals

A numeral with a point is read as a real, any other as an integer. Both may stand between blanks,
carry a sign, have single underscores between their digits, and use the decimal digits of any
script. An integer may have at most 4300 digits, zeros in front included; a real has no limit.
-/

namespace BraceLang

/-- The value of a numeral. -/
inductive Number where
  | integer (value : Int)
  | real (value : Binary64)
  deriving DecidableEq, Repr

namespace Numeral

/-- Why a text is no numeral. -/
inductive Error where
  | notInteger (text : String)
  | notReal (text : String)
  | tooManyDigits (count : Nat)
  deriving DecidableEq, Repr

/-- The most digits an integer may have. -/
def maxDigits : Nat := 4300

/-- The wording for a quoted text that is no integer to a base; at most 200 characters are shown. -/
def notIntegerMessage (base : Nat) (quoted : List Char) : String :=
  s!"invalid literal for int() with base {base}: " ++ String.ofList (quoted.take 200)

/-- The wording for a quoted text that is no real. -/
def notRealMessage (quoted : List Char) : String :=
  "could not convert string to float: " ++ String.ofList quoted

/-- The wording of an error. -/
def Error.message : Error → String
  | .notInteger text => notIntegerMessage 10 (Text.quotedChars text.toList)
  | .notReal text => notRealMessage (Text.quotedChars text.toList)
  | .tooManyDigits count =>
    s!"Exceeds the limit ({maxDigits} digits) for integer string conversion: value has {count} " ++
      "digits; use sys.set_int_max_str_digits() to increase the limit"

/-- A blank of ASCII. -/
def isAsciiBlank (c : Char) : Bool :=
  c == ' ' || (9 ≤ c.toNat && c.toNat ≤ 13)

/-- A character beyond ASCII as the blank or the digit that it stands for, or a question mark,
which is in no numeral. -/
def asciiForm (c : Char) : Char :=
  if c.toNat < 128 then c
  else if Unicode.isBlank c then ' '
  else match Unicode.decimalValue? c with
    | some value => Nat.digitChar value
    | none => '?'

/-- A text in ASCII. -/
def asciiText (text : List Char) : List Char := text.map asciiForm

/-- A text without the blanks in front of it. -/
def afterBlanks (text : List Char) : List Char := text.dropWhile isAsciiBlank

/-- Whether a text has a minus sign, and the text without its sign. -/
def splitSign : List Char → Bool × List Char
  | '-' :: rest => (true, rest)
  | '+' :: rest => (false, rest)
  | rest => (false, rest)

/-- Every underscore stands between two digits; `before` tells whether a digit stands in front. -/
def underscoresSeparate : Bool → List Char → Bool
  | _, [] => true
  | before, '_' :: rest =>
    before && (rest.head?.any Char.isDigit) && underscoresSeparate false rest
  | _, c :: rest => underscoresSeparate c.isDigit rest

/-- The number that a row of ASCII digits stands for. -/
def natural (digits : List Char) : Nat :=
  digits.foldl (fun value digit => 10 * value + (digit.toNat - 48)) 0

/-- Why a text in ASCII is no integer. -/
inductive Fault where
  | malformed
  | tooManyDigits (count : Nat)
  deriving DecidableEq, Repr

/-- The integer of a text in ASCII. -/
def integer (text : List Char) : Except Fault Int :=
  let (negative, rest) := splitSign (afterBlanks text)
  let (body, tail) := rest.span fun c => c.isDigit || c == '_'
  let digits := body.filter (· != '_')
  if body.isEmpty || !underscoresSeparate false body then .error .malformed
  else if maxDigits < digits.length then .error (.tooManyDigits digits.length)
  else if !tail.all isAsciiBlank then .error .malformed
  else .ok (if negative then -natural digits else natural digits)

/-- Reads an integer. -/
def readInteger (text : String) : Except Error Int :=
  (integer (asciiText text.toList)).mapError fun
    | .malformed => .notInteger text
    | .tooManyDigits count => .tooManyDigits count

/-- The value of a digit or letter of ASCII; letters of either case count on from ten. -/
def digitValue (c : Char) : Nat :=
  if c.isDigit then c.toNat - 48 else if c.isLower then c.toNat - 87 else c.toNat - 55

/-- Whether a character is a digit to a base of at most 36. -/
def isDigitOf (base : Nat) (c : Char) : Bool := c.isAlphanum && decide (digitValue c < base)

/-- The number that a row of digits to a base stands for. -/
def naturalOf (base : Nat) (digits : List Char) : Nat :=
  digits.foldl (fun value digit => base * value + digitValue digit) 0

/-- The letter that tells a base behind a zero, where the base has one. -/
def baseLetter? (base : Nat) : Option Char :=
  if base = 2 then some 'b' else if base = 8 then some 'o' else if base = 16 then some 'x' else none

/-- A text without the zero and the letter that tell its base, if it has them. -/
def withoutBase (base : Nat) : List Char → List Char
  | '0' :: letter :: rest =>
    if baseLetter? base = some letter.toLower then rest else '0' :: letter :: rest
  | rest => rest

/-- The integer of a text in ASCII to a base that is a power of two. It may have any number of
digits, but no underscores. -/
def integerOf? (base : Nat) (text : List Char) : Option Int :=
  let (negative, rest) := splitSign (afterBlanks text)
  let (digits, tail) := (withoutBase base rest).span (isDigitOf base)
  if digits.isEmpty || !tail.all isAsciiBlank then none
  else some (if negative then -naturalOf base digits else naturalOf base digits)

/-- Reads an exponent: nothing, or the letter `e`, a sign if any, and digits. -/
def readExponent : List Char → Option Int
  | [] => some 0
  | letter :: rest =>
    let (negative, digits) := splitSign rest
    if (letter == 'e' || letter == 'E') && !digits.isEmpty && digits.all Char.isDigit then
      some (if negative then -natural digits else natural digits)
    else none

/-- Reads digits with a point, if any, and an exponent, if any. -/
def readDecimal (text : List Char) : Option Decimal :=
  let (whole, rest) := text.span Char.isDigit
  let (fraction, rest) := match rest with
    | '.' :: more => more.span Char.isDigit
    | _ => ([], rest)
  if whole.isEmpty && fraction.isEmpty then none
  else (readExponent rest).map fun exponent =>
    ⟨natural (whole ++ fraction), exponent - fraction.length⟩

/-- Reads the text of a real in ASCII, without blanks and underscores. -/
def readBinary64 (text : List Char) : Option Binary64 :=
  let (negative, rest) := splitSign text
  let word := String.ofList (rest.map Char.toLower)
  if word == "inf" || word == "infinity" then some (.infinite negative)
  else if word == "nan" then some .nan
  else (readDecimal rest).map (Binary64.ofDecimal negative)

/-- The real of a text in ASCII. -/
def real? (text : List Char) : Option Binary64 :=
  let body := ((afterBlanks text).reverse.dropWhile isAsciiBlank).reverse
  if underscoresSeparate false body then readBinary64 (body.filter (· != '_')) else none

/-- Reads a real. -/
def readReal (text : String) : Except Error Binary64 :=
  match real? (asciiText text.toList) with
  | some value => .ok value
  | none => .error (.notReal text)

/-- Reads a numeral. -/
def read (text : String) : Except Error Number :=
  if text.toList.contains '.' then (readReal text).map .real
  else (readInteger text).map .integer

end Numeral

end BraceLang
