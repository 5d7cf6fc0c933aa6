import BraceLang.Parser.Statement

/-!
# Parsing programs

The layers are built from the innermost one outwards. A program is a list of statements up to the
end of the input.
-/

namespace BraceLang

/-- The layer around what is inside it. -/
def Layer.around (options : Options) (inside : Option Layer) : Layer where
  type := Parser.type inside
  expression := Parser.expression inside
  operand := Parser.operand inside
  statement := Parser.statement options inside

/-- What is inside a construct where so many more levels may be opened. -/
def layerInside (options : Options) : Nat → Option Layer
  | 0 => none
  | levels + 1 => some (Layer.around options (layerInside options levels))

namespace Parser

/-- What is inside a construct on the outermost level. -/
def outermost (options : Options) : Option Layer := layerInside options maxNesting

/-- Reads a program. -/
def program (options : Options) : Parser (List Statement) :=
  statements (statement options (outermost options)) []

end Parser

end BraceLang
