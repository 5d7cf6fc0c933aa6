import BraceLang.Parser.Input
import BraceLang.Program.Tree

/-!
# Parsing step by step

A session applies one parser after the other to the same input. Nothing is kept between two steps
but what is unread and what was reported.
-/

namespace BraceLang

/-- An input of which a part is unread, and the complaints so far. -/
structure Session where
  input : Input
  unread : List Lexeme
  reports : List Report
  deriving DecidableEq, Repr

namespace Session

/-- The session in which all of an input is unread. -/
def start (input : Input) : Session := ⟨input, input.lexemes, []⟩

/-- The token that is read next. -/
def next (session : Session) : Token := session.input.tokenAt session.unread.length

/-- Applies a parser to what is unread: its value or the report of its failure, and the session
behind it. -/
def step {α : Type} (session : Session) (parser : Parser α) :
    Except Halt (Except Report α × Session) :=
  match parser session.unread with
  | .done value unread reports =>
    .ok (.ok value, { session with unread, reports := session.reports ++ reports })
  | .failed report unread reports =>
    .ok (.error report, { session with unread, reports := session.reports ++ reports ++ [report] })
  | .stopped halt => .error halt

end Session

/-- The parsers that a session may be asked for. -/
inductive Entry where
  | program
  | statement
  | block
  | type
  | primary
  | expression (minimum : Int)
  deriving DecidableEq, Repr

namespace Entry

/-- The parser of an entry, with the tree view of its result. -/
def parser (options : Options) : Entry → Parser Tree.Node
  | .program => Statement.blockToNode <$> Parser.program options
  | .statement =>
    Statement.toNode <$> Parser.recovered (Parser.statement options (Parser.outermost options))
  | .block => Statement.blockToNode <$> Parser.block (Parser.outermost options)
  | .type => TypeExpr.toNode <$> Parser.type (Parser.outermost options)
  | .primary => Expression.toNode <$> Parser.primary (Parser.outermost options) true
  | .expression minimum =>
    Expression.toNode <$> Parser.expressionAbove (Parser.outermost options) true minimum

end Entry

end BraceLang
