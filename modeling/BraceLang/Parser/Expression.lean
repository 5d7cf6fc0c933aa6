import BraceLang.Parser.Type
import BraceLang.Unicode.Uppercase

/-!
# Parsing expressions

The binary operators are parsed by precedence: a row of operands of one precedence is a row of
rows of the next greater one, and groups to the left. An operand is a primary expression with
scope accesses behind it.

Where no struct literal may begin, as in a condition, the brace behind a name opens a block. In
groups, lists and blocks struct literals may begin again.
-/

namespace BraceLang.Parser

/-- Reads a statement, or puts the complaint about it in its place where it fails. -/
def recovered (statement : Parser Statement) : Parser Statement := fun unread =>
  match statement unread with
  | .failed report rest reports => .done (.error report.complaint) rest (reports ++ [report])
  | reply => reply

/-- Passes a lexeme where a parser left everything unread, so that a loop moves on. -/
def passing {α : Type} (parser : Parser α) : Parser α := fun unread =>
  match parser unread with
  | .done value rest reports =>
    .done value (if rest.length < unread.length then rest else rest.tail) reports
  | reply => reply

/-- Reads a statement, unless one of some marks or the end is next. -/
def nextStatement (statement : Parser Statement) (closing : List String)
    (items : List Statement) : Parser (Turn (List Statement)) := do
  if ← atEnd then return .finish items
  else if ← nextIsMark closing then return .finish items
  else
    let item ← passing (recovered statement)
    return .again (item :: items)

/-- Reads statements up to one of some marks, which stays unread, or to the end. -/
def statements (statement : Parser Statement) (closing : List String) :
    Parser (List Statement) := do
  let items ← repeating (nextStatement statement closing) []
  return items.reverse

/-- Reads a block. -/
def block (inside : Option Layer) : Parser (List Statement) := do
  let body ← nested inside fun layer => do
    expectMark "\x7b" .blockOpening
    statements layer.statement ["\x7d"]
  expectMark "\x7d" .blockClosing
  return body

/-- Reads the arguments of a call; the opening parenthesis is next. -/
def arguments (inside : Option Layer) : Parser (List Expression) :=
  nested inside fun layer => do
    advance
    let items ← listed (layer.expression true) ")"
    expectMark ")" .argumentsClosing
    return items

/-- Reads a function value; an empty pair of parentheses is next. -/
def functionValue (inside : Option Layer) : Parser Expression := do
  advance
  advance
  expectMark "->" .returnType
  let returnType ← type inside
  let body ← block inside
  return .function returnType body

/-- Reads a field of a struct literal whose other fields are given: a name with a colon and a
value, or a name that is its own value. -/
def literalField (layer : Layer) (struct : String) (given : List (String × Expression)) :
    Parser (String × Expression) := do
  match ← peek with
  | some lexeme =>
    if lexeme.kind = .identifier then
      if given.any (·.1 == lexeme.text) then rejectPassing (.unsetField struct)
      else
        advance
        if ← accept [":"] then
          let value ← layer.expression true
          return (lexeme.text, value)
        else return (lexeme.text, .name ⟨lexeme.text, []⟩)
    else reject .fieldName
  | none => reject .fieldName

/-- Reads a struct literal behind its name; the opening brace is next. -/
def structLiteral (inside : Option Layer) (name : String) : Parser Expression :=
  nested inside fun layer => do
    advance
    let fields ← upTo (literalField layer name) [","] "\x7d"
    expectMark "\x7d" .literalClosing
    return .structLiteral name fields

/-- Whether a name may have type arguments: it begins with a capital, so that comparisons of
other names stay comparisons. -/
def isGenericName (name : String) : Bool :=
  name.toList.head?.any Unicode.isUppercase

/-- Whether type arguments come next: an angle bracket and a word. -/
def nextAreTypeArguments : Parser Bool := do
  let bracket ← nextIsMark ["<"]
  let second ← peekSecond
  return bracket && second.any Lexeme.isWord

/-- Reads the arguments of a call behind a name, if there are any. -/
def called (inside : Option Layer) (name : Name) : Parser Expression := do
  if ← nextIsMark ["("] then
    let arguments ← arguments inside
    return .call name arguments
  else return .name name

/-- Reads what may stand behind a name: the fields of a struct literal, type arguments, the
arguments of a call. -/
def named (inside : Option Layer) (literals : Bool) (name : String) : Parser Expression := do
  let brace ← nextIsMark ["\x7b"]
  if literals && brace then structLiteral inside name
  else
    let generic ← nextAreTypeArguments
    if generic && isGenericName name then
      advance
      let typeArguments ← typeArguments inside
      called inside ⟨name, typeArguments⟩
    else called inside ⟨name, []⟩

/-- Reads an expression in parentheses; the opening one is next. -/
def group (inside : Option Layer) : Parser Expression :=
  nested inside fun layer => do
    advance
    let value ← layer.expression true
    expectMark ")" .groupClosing
    return value

/-- Reads an array; the opening bracket is next. -/
def array (inside : Option Layer) : Parser Expression :=
  nested inside fun layer => do
    advance
    let items ← listed (layer.expression true) "]"
    expectMark "]" .itemsClosing
    return .array items

/-- Reads a unary operator, which is next, and its operand. -/
def unary (inside : Option Layer) (literals : Bool) (operator : UnaryOperator) :
    Parser Expression :=
  nested inside fun layer => do
    advance
    let operand ← layer.operand literals
    return .unary operator operand

/-- Passes a lexeme that begins no expression, and reports it. -/
def noExpression : Parser Expression := do
  let complaint ← complain .expression
  advance
  return .error complaint

/-- Reads an expression that begins with a mark. -/
def marked (inside : Option Layer) (literals : Bool) (mark : String) : Parser Expression := do
  if mark = "(" then
    if (← peekSecond).any (·.isMarkOf [")"]) then functionValue inside else group inside
  else if mark = "[" then array inside
  else match UnaryOperator.ofSpelling? mark with
    | some operator => unary inside literals operator
    | none => noExpression

/-- Reads a primary expression: a literal, a name with what belongs to it, a group, a function
value or a unary operation. -/
def primary (inside : Option Layer) (literals : Bool) : Parser Expression := do
  match ← peek with
  | none => noExpression
  | some lexeme =>
    match lexeme.kind with
    | .number =>
      let value ← numeral lexeme.text
      return .number value
    | .string =>
      advance
      return .string lexeme.text
    | .keyword | .identifier =>
      if lexeme.text = "true" ∨ lexeme.text = "false" then
        advance
        return .boolean (lexeme.text == "true")
      else if lexeme.kind = .identifier then
        advance
        named inside literals lexeme.text
      else noExpression
    | .symbol | .operator => marked inside literals lexeme.text
    | .endOfInput => noExpression

/-- Reads an access to the scope of an expression, if one is next. -/
def nextAccess (inside : Option Layer) (scope : Expression) : Parser (Turn Expression) := do
  if ← accept ["::"] then
    let name ← identifier .memberName
    if ← nextIsMark ["("] then
      let arguments ← arguments inside
      return .again (.memberCall scope name arguments)
    else return .again (.member scope name)
  else return .finish scope

/-- Reads an operand: a primary expression with any number of scope accesses. -/
def operand (inside : Option Layer) (literals : Bool) : Parser Expression := do
  let first ← primary inside literals
  repeating (nextAccess inside) first

/-- The binary operator that is next, if it has a certain precedence. -/
def nextOperator (precedence : Nat) : Parser (Option BinaryOperator) := do
  return (← peek).bind fun lexeme =>
    if lexeme.isMark then
      (BinaryOperator.ofSpelling? lexeme.text).filter (·.precedence == precedence)
    else none

/-- Reads a binary operator of a certain precedence and what stands behind it, if there is one. -/
def nextOperand (behind : Parser Expression) (precedence : Nat) (left : Expression) :
    Parser (Turn Expression) := do
  match ← nextOperator precedence with
  | some operator =>
    advance
    let right ← behind
    return .again (.binary left operator right)
  | none => return .finish left

/-- Reads a row of operands with binary operators of the `count` greatest precedences. -/
def binary (operand : Parser Expression) : Nat → Parser Expression
  | 0 => operand
  | count + 1 => do
    let first ← binary operand count
    repeating (nextOperand (binary operand count) (6 - count)) first

/-- How many of the seven precedences are greater than a minimum. -/
def precedencesAbove (minimum : Int) : Nat :=
  (6 - max minimum (-1)).toNat

/-- Reads an expression whose operators bind tighter than a minimum. Scope access has the
precedence seven. -/
def expressionAbove (inside : Option Layer) (literals : Bool) (minimum : Int) :
    Parser Expression :=
  if minimum < 7 then binary (operand inside literals) (precedencesAbove minimum)
  else primary inside literals

/-- Reads an expression. -/
def expression (inside : Option Layer) (literals : Bool) : Parser Expression :=
  expressionAbove inside literals (-1)

end BraceLang.Parser
