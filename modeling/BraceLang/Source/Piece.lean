import BraceLang.Lexeme
import BraceLang.Unicode.Alphanumeric
import BraceLang.Unicode.Blank
import BraceLang.Unicode.Digit

/-!
# Pieces of a source

A source is read as a row of pieces: blanks, comments, words, quoted texts, two-character
operators and symbols. Each piece knows the text that it was read from, so the pieces in their
order give the source back.
-/

namespace BraceLang.Source

/-- A piece of a source. -/
inductive Piece where
  /-- One character of white space. -/
  | blank (c : Char)
  /-- Two slashes and the rest of the line. -/
  | lineComment (body : List Char)
  /-- A text between `/*` and the next `*/`. -/
  | blockComment (body : List Char)
  /-- A word or a number. -/
  | word (text : List Char)
  /-- A text between double quotes. -/
  | quoted (body : List Char)
  /-- An operator of two characters. -/
  | operator (first second : Char)
  /-- A single mark. -/
  | symbol (c : Char)
  deriving DecidableEq, Repr

namespace Piece

/-- The text that a piece was read from. -/
def text : Piece → List Char
  | .blank c => [c]
  | .lineComment body => '/' :: '/' :: body
  | .blockComment body => '/' :: '*' :: (body ++ ['*', '/'])
  | .word text => text
  | .quoted body => '"' :: (body ++ ['"'])
  | .operator first second => [first, second]
  | .symbol c => [c]

/-- Whether a piece is a word. -/
def isWord : Piece → Bool
  | .word _ => true
  | _ => false

end Piece

/-- A character that words are made of. -/
def isWordChar (c : Char) : Bool :=
  Unicode.isAlphanumeric c || c == '_'

/-- The operators of two characters. -/
def isOperator (first second : Char) : Bool :=
  match first, second with
  | '=', '=' | '!', '=' | '>', '=' | '<', '=' | '-', '>' | '&', '&' | '|', '|' | ':', ':' => true
  | _, _ => false

/-- The punctuation of ASCII that stands for itself: all but the double quote and the
underscore. -/
def isSymbol (c : Char) : Bool :=
  let code := c.toNat
  (33 ≤ code && code ≤ 47 || 58 ≤ code && code ≤ 64 || 91 ≤ code && code ≤ 96 ||
    123 ≤ code && code ≤ 126) && c != '"' && c != '_'

/-- The digits of ASCII. -/
def isAsciiDigit (c : Char) : Bool :=
  '0' ≤ c && c ≤ '9'

/-- A number is written in ASCII digits, with at least one digit behind its point if it has one. -/
def isNumber (text : List Char) : Bool :=
  match text.dropWhile isAsciiDigit with
  | [] => !text.isEmpty
  | c :: fraction => c == '.' && !fraction.isEmpty && fraction.all isAsciiDigit

/-- The kind of a word: a keyword if it is listed as one, else a number or an identifier. -/
def wordKind (keywords : List String) (text : List Char) : Kind :=
  if keywords.contains (String.ofList text) then .keyword
  else if isNumber text then .number
  else .identifier

/-- The lexeme of a piece. Blanks, comments and empty quoted texts have none. -/
def Piece.lexeme? (keywords : List String) : Piece → Option Lexeme
  | .blank _ | .lineComment _ | .blockComment _ => none
  | .word text => some ⟨wordKind keywords text, String.ofList text⟩
  | .quoted body => if body.isEmpty then none else some ⟨.string, String.ofList body⟩
  | .operator first second => some ⟨.operator, String.ofList [first, second]⟩
  | .symbol c => some ⟨.symbol, String.ofList [c]⟩

end BraceLang.Source
