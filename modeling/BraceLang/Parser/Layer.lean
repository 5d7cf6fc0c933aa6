import BraceLang.Parser.Repeat

/-!
# Layers of nesting

Blocks, brackets, type arguments and the operands of unary operators are parsed one layer further
in. The innermost layer has nothing inside it: where it would nest once more it complains, and
passes the whole bracketed group that begins there, so that one report covers it.
-/

namespace BraceLang

/-- The parsers for what stands inside a nesting construct. Those for expressions are told whether
a name and an opening brace begin a struct literal. -/
structure Layer where
  type : Parser TypeExpr
  expression : Bool → Parser Expression
  operand : Bool → Parser Expression
  /-- A statement, or the failure to parse one. -/
  statement : Parser Statement

/-- The marks that open a group. -/
def openers : List String := ["(", "[", "\x7b"]

/-- The marks that close a group. -/
def closers : List String := [")", "]", "\x7d"]

/-- What is unread behind the closing mark of the outermost of some open groups. -/
def behindGroups : Nat → List Lexeme → List Lexeme
  | _, [] => []
  | depth, lexeme :: rest =>
    if lexeme.isMarkOf openers then behindGroups (depth + 1) rest
    else if lexeme.isMarkOf closers then
      if depth ≤ 1 then rest else behindGroups (depth - 1) rest
    else behindGroups depth rest

/-- What is unread behind a group, if one begins here. -/
def behindGroup : List Lexeme → List Lexeme
  | [] => []
  | lexeme :: rest => if lexeme.isMarkOf openers then behindGroups 1 rest else lexeme :: rest

/-- Parses one layer further in, or complains that there is none. -/
def nested {α : Type} (inside : Option Layer) (parser : Layer → Parser α) : Parser α :=
  match inside with
  | some layer => parser layer
  | none => fun unread =>
    .failed ⟨unread.length, .nestingTooDeep unread.head?⟩ (behindGroup unread) []

end BraceLang
