import BraceLang.Location

/-!
# Lexemes and tokens

A lexeme is a spelled word, number, string or mark of a program together with its kind; a token is
a lexeme at a place.
-/

namespace BraceLang

/-- The kinds of lexemes. -/
inductive Kind where
  | keyword
  | identifier
  | number
  | string
  | symbol
  | operator
  | endOfInput
  deriving DecidableEq, Repr

namespace Kind

/-- The name of a kind. -/
def name : Kind → String
  | .keyword => "keyword"
  | .identifier => "identifier"
  | .number => "number"
  | .string => "string"
  | .symbol => "symbol"
  | .operator => "operator"
  | .endOfInput => "eof"

/-- All kinds. -/
def all : List Kind :=
  [.keyword, .identifier, .number, .string, .symbol, .operator, .endOfInput]

/-- The kind of a name. -/
def ofName? (name : String) : Option Kind := all.find? (·.name == name)

/-- A kind is found by its name. -/
theorem ofName?_name (kind : Kind) : ofName? kind.name = some kind := by
  cases kind <;> decide

end Kind

/-- A spelling and its kind. -/
structure Lexeme where
  kind : Kind
  text : String
  deriving DecidableEq, Repr

namespace Lexeme

/-- Keywords and identifiers are words: where the grammar asks for a certain word it takes
either. -/
def isWord (lexeme : Lexeme) : Bool :=
  lexeme.kind == .keyword || lexeme.kind == .identifier

/-- A word with one of the given spellings. -/
def isWordOf (lexeme : Lexeme) (spellings : List String) : Bool :=
  lexeme.isWord && spellings.contains lexeme.text

/-- Symbols and operators are marks. -/
def isMark (lexeme : Lexeme) : Bool :=
  lexeme.kind == .symbol || lexeme.kind == .operator

/-- A mark with one of the given spellings. -/
def isMarkOf (lexeme : Lexeme) (spellings : List String) : Bool :=
  lexeme.isMark && spellings.contains lexeme.text

/-- A lexeme as messages name it. -/
def description (lexeme : Lexeme) : String :=
  s!"{lexeme.kind.name} '{lexeme.text}'"

end Lexeme

/-- A lexeme at a place. -/
structure Token extends Lexeme where
  location : Location
  deriving DecidableEq, Repr

namespace Token

/-- A token as it is shown, without its place. -/
def shown (token : Token) : String :=
  s!"Token({token.kind.name}, {token.text})"

/-- The token that ends an input. -/
def ending (location : Location) : Token := ⟨⟨.endOfInput, ""⟩, location⟩

end Token

end BraceLang
