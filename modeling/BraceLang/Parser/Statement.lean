import BraceLang.Parser.Expression

/-!
# Parsing statements

A statement begins with its word; any other lexeme begins an expression. Simple statements end in
a semicolon, the others in a block or in a closing brace.
-/

namespace BraceLang.Parser

/-- Passes the semicolon at the end of a statement. -/
def terminator : Parser Unit := expectMark ";" .terminator

/-- Reads the rest of a statement that is nothing but its word. -/
def closed (statement : Statement) : Parser Statement := do
  terminator
  return statement

/-- Whether an empty pair of parentheses is next, which begins a function value. -/
def nextIsFunctionValue : Parser Bool := do
  let opening ← nextIsMark ["("]
  let second ← peekSecond
  return opening && second.any (·.isMarkOf [")"])

/-- Reads a declaration behind its word. Behind a function value the semicolon may be left out at
the end of the input. -/
def declaration (inside : Option Layer) (binding : Binding) : Parser Statement := do
  let name ← identifier .variableName
  let type ← annotation inside
  expectMark "=" .initializer
  if ← nextIsFunctionValue then
    let value ← functionValue inside
    if ← atEnd then return .declaration binding name type value
    else
      terminator
      return .declaration binding name type value
  else
    let value ← expression inside true
    terminator
    return .declaration binding name type value

/-- Reads a condition and its block. -/
def branch (inside : Option Layer) : Parser Branch := do
  let condition ← expression inside false
  let body ← block inside
  return .mk condition body

/-- Reads a further branch of a conditional statement, or the block for when none is taken, if the
word for it is next. -/
def nextBranch (inside : Option Layer) (others : List Branch × Option (List Statement)) :
    Parser (Turn (List Branch × Option (List Statement))) := do
  if ← nextIsWord ["else"] then
    advance
    if ← nextIsWord ["if"] then
      advance
      let next ← branch inside
      return .again (next :: others.1, none)
    else
      let body ← block inside
      return .finish (others.1, some body)
  else return .finish (others.1, none)

/-- Reads a conditional statement behind its first word. -/
def conditional (inside : Option Layer) : Parser Statement := do
  let first ← branch inside
  let (others, otherwise) ← repeating (nextBranch inside) ([], none)
  return .conditional first others.reverse otherwise

/-- Reads a loop over a condition behind its word. -/
def whileLoop (inside : Option Layer) : Parser Statement := do
  let condition ← expression inside false
  let body ← block inside
  return .whileLoop condition body

/-- Reads the word that declares a binding. -/
def binding : Parser Binding := do
  if ← nextIsWord ["let"] then
    advance
    return .variable
  else if ← nextIsWord ["const"] then
    advance
    return .constant
  else reject .loopBinding

/-- Reads a loop over the items of something behind its word. -/
def forLoop (inside : Option Layer) : Parser Statement := do
  let binding ← binding
  let name ← identifier .loopVariable
  expectWord "in" .loopIn
  let iterable ← expression inside false
  let body ← block inside
  return .forLoop binding name iterable body

/-- Reads a return behind its word. -/
def returnValue (inside : Option Layer) : Parser Statement := do
  if ← nextIsMark [";"] then
    terminator
    return .returnValue none
  else
    let value ← expression inside true
    terminator
    return .returnValue (some value)

/-- Reads a field of a struct. -/
def structField (inside : Option Layer) : Parser StructField := do
  let name ← identifier .fieldName
  expectMark ":" .fieldColon
  let type ← type inside
  return ⟨name, type⟩

/-- Reads a struct behind its word. Commas and semicolons separate its fields. -/
def struct (inside : Option Layer) : Parser Statement := do
  let name ← identifier .structName
  expectMark "\x7b" .structOpening
  let fields ← upTo (fun _ => structField inside) [",", ";"] "\x7d"
  expectMark "\x7d" .structClosing
  return .struct name fields

/-- Reads a parameter. -/
def parameter (inside : Option Layer) : Parser Parameter := do
  let name ← identifier .parameterName
  let type ← annotation inside
  return ⟨name, type⟩

/-- Reads a list of parameters in parentheses. -/
def parameters (inside : Option Layer) : Parser (List Parameter) := do
  expectMark "(" .parametersOpening
  let items ← listed (parameter inside) ")"
  expectMark ")" .parametersClosing
  return items

/-- Reads an arrow or a colon and the type that is returned; it may be missing if it need not be
stated. -/
def returnType (inside : Option Layer) (stated : Bool) : Parser (Option TypeExpr) := do
  if ← accept ["->", ":"] then
    let type ← type inside
    return some type
  else if stated then reject .returnType
  else return none

/-- Reads a function from its name on. -/
def callable (inside : Option Layer) (expected : Expected) (stated : Bool) : Parser Function := do
  let name ← identifier expected
  let parameters ← parameters inside
  let returnType ← returnType inside stated
  let body ← block inside
  return .mk name parameters returnType body

/-- Reads a function behind its word. -/
def function (options : Options) (inside : Option Layer) : Parser Statement := do
  let function ← callable inside .functionName options.functionsStateReturn
  return .function function

/-- Reads a method, with or without the word for functions in front. -/
def method (options : Options) (inside : Option Layer) : Parser Function := do
  if ← nextIsWord ["fn"] then
    advance
    callable inside .methodName options.methodsStateReturn
  else callable inside .methodName options.methodsStateReturn

/-- Reads a method, unless the closing brace or the end is next. -/
def nextMethod (options : Options) (inside : Option Layer) (methods : List Function) :
    Parser (Turn (List Function)) := do
  if ← nextIsMark ["\x7d"] then return .finish methods
  else if ← atEnd then return .finish methods
  else
    let item ← method options inside
    return .again (item :: methods)

/-- Reads the methods of a struct behind their word. -/
def impl (options : Options) (inside : Option Layer) : Parser Statement := do
  let name ← identifier .implTarget
  expectMark "\x7b" .implOpening
  let methods ← repeating (nextMethod options inside) []
  expectMark "\x7d" .implClosing
  return .impl name methods.reverse

/-- Reads an expression that stands as a statement. -/
def expressionStatement (inside : Option Layer) : Parser Statement := do
  let value ← expression inside true
  terminator
  return .expression value

/-- The parser for what follows a word that begins a statement. -/
def behindWord (options : Options) (inside : Option Layer) : String → Option (Parser Statement)
  | "let" => some (declaration inside .variable)
  | "const" => some (declaration inside .constant)
  | "if" => some (conditional inside)
  | "while" => some (whileLoop inside)
  | "for" => some (forLoop inside)
  | "break" => some (closed .breakLoop)
  | "continue" => some (closed .continueLoop)
  | "return" => some (returnValue inside)
  | "struct" => some (struct inside)
  | "impl" => some (impl options inside)
  | "fn" => some (function options inside)
  | _ => none

/-- Reads a statement, or fails. -/
def statement (options : Options) (inside : Option Layer) : Parser Statement := do
  match ← peek with
  | some lexeme =>
    match if lexeme.isWord then behindWord options inside lexeme.text else none with
    | some parser =>
      advance
      parser
    | none => expressionStatement inside
  | none => expressionStatement inside

end BraceLang.Parser
