import BraceLang.Parser.Layer

/-!
# Parsing types

A type is a word, and may be applied to other types between angle brackets.
-/

namespace BraceLang.Parser

/-- Reads the arguments of a type, behind the opening angle bracket. -/
def typeArguments (inside : Option Layer) : Parser (List TypeExpr) := do
  let arguments ← nested inside fun layer => separated layer.type
  expectMark ">" .typeArgumentsClosing
  return arguments

/-- Reads a type. -/
def type (inside : Option Layer) : Parser TypeExpr := do
  let name ← word .typeName
  if ← accept ["<"] then
    let arguments ← typeArguments inside
    return .mk name arguments
  else return .mk name []

/-- Reads a colon and a type, if there is a colon. -/
def annotation (inside : Option Layer) : Parser (Option TypeExpr) := do
  if ← accept [":"] then
    let type ← type inside
    return some type
  else return none

end BraceLang.Parser
