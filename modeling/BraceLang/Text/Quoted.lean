import BraceLang.Text.Point
import BraceLang.Unicode.Printable

/-!
# Quoted text

Messages and renderings show a text between quotes, on one line: line breaks, tabs and characters
that cannot be printed are written as escapes. Single quotes are preferred; a text that holds a
single quote and no double one is put between double quotes. Bytes are shown in the same way, with
the letter `b` in front.
-/

namespace BraceLang.Text

/-- The last `width` hexadecimal digits of a number, in small letters. -/
def hexDigits (width number : Nat) : List Char :=
  (List.range width).reverse.map fun place => Nat.digitChar (number / Nat.pow 16 place % 16)

/-- A code point by its number, in the shortest of the forms `\xNN`, `\uNNNN`, `\UNNNNNNNN`. -/
def codeEscape (code : Nat) : List Char :=
  if code < 0x100 then '\\' :: 'x' :: hexDigits 2 code
  else if code < 0x10000 then '\\' :: 'u' :: hexDigits 4 code
  else '\\' :: 'U' :: hexDigits 8 code

/-- One character of a text, as it stands between two `quote` characters. -/
def escaped (quote c : Char) : List Char :=
  if c = quote ∨ c = '\\' then ['\\', c]
  else if c = '\n' then ['\\', 'n']
  else if c = '\r' then ['\\', 'r']
  else if c = '\t' then ['\\', 't']
  else if Unicode.isPrintable c then [c]
  else codeEscape c.toNat

/-- The quote that a text is put between. -/
def quoteFor (text : List Char) : Char :=
  if text.contains '\'' && !text.contains '"' then '"' else '\''

/-- A text between quotes. -/
def quotedChars (text : List Char) : List Char :=
  quoteFor text :: (text.flatMap (escaped (quoteFor text)) ++ [quoteFor text])

/-- A text between quotes. -/
def quoted (text : String) : String :=
  String.ofList (quotedChars text.toList)

/-- One point of a text, as it stands between two `quote` characters. -/
def escapedPoint (quote : Char) : Point → List Char
  | .char c => escaped quote c
  | .surrogate code => codeEscape code

/-- A text that may hold surrogates between quotes. -/
def quotedPoints (text : List Point) : List Char :=
  let quote := quoteFor (text.filterMap Point.char?)
  quote :: (text.flatMap (escapedPoint quote) ++ [quote])

/-- A text without surrogates is quoted as its characters are. -/
theorem quotedPoints_points (text : List Char) : quotedPoints (points text) = quotedChars text := by
  have hchars : (points text).filterMap Point.char? = text := by
    simp [points, List.filterMap_map, Function.comp_def, Point.char?]
  have hescaped (quote : Char) :
      (points text).flatMap (escapedPoint quote) = text.flatMap (escaped quote) := by
    simp only [points, List.flatMap_map]
    rfl
  simp only [quotedPoints, quotedChars, hchars, hescaped]

/-- One byte, as it stands between two `quote` characters. -/
def escapedByte (quote : Char) (byte : Nat) : List Char :=
  if byte < 0x80 then escaped quote (Char.ofNat byte) else codeEscape byte

/-- Bytes between quotes. -/
def quotedBytes (bytes : List Nat) : List Char :=
  let quote := quoteFor (bytes.map Char.ofNat)
  'b' :: quote :: (bytes.flatMap (escapedByte quote) ++ [quote])

end BraceLang.Text
