import BraceLang.Outline.Basic
import BraceLang.Parser.Session

/-!
# Outlines of the grammar

There is an outline for each parser of the grammar if there is one for those of the layer inside it,
and so there is one for programs and for everything else that a session may be asked for. Types and
parameters have no statements in them.

An outline says besides what the parsers leave open. It is one for a whole procedure where a
construct is a call of its own, and it tells where struct literals are forbidden or allowed again:
they are forbidden in the condition in front of a block, and allowed inside all brackets.
-/

namespace BraceLang

open BraceLang.Parser

namespace Outline

variable {α : Type} {allowance : Allowance} {known : Option Lexeme}

section Primitives

/-- Goes on with either answer to a question. -/
def either {question : Parser Bool} {yes no : Parser α}
    (asking : Outline allowance known question) (affirmed : Outline allowance none yes)
    (denied : Outline allowance none no) :
    Outline allowance known (question >>= fun answer => if answer = true then yes else no) :=
  .bind asking fun answer =>
  .cond (answer = true) (fun _ => affirmed) fun _ => denied

/-- Tests the next lexeme. -/
def test (question : Option Lexeme → Bool) :
    Outline allowance known (peek >>= fun next => (Pure.pure (question next) : Parser Bool)) :=
  .look (.pure (question none)) fun lexeme => .pure (question (some lexeme))

/-- Asks for one of some marks. -/
def nextIsMark (marks : List String) : Outline allowance known (Parser.nextIsMark marks) :=
  test (·.any (·.isMarkOf marks))

/-- Asks for one of some words. -/
def nextIsWord (words : List String) : Outline allowance known (Parser.nextIsWord words) :=
  test (·.any (·.isWordOf words))

/-- Asks for the end of the input. -/
def atEnd : Outline allowance known Parser.atEnd := test (·.isNone)

/-- Passes one of some marks, if one is next. -/
def accept (marks : List String) : Outline allowance none (Parser.accept marks) :=
  (nextIsMark marks).either
    (.bind .advance fun _ =>
      .pure true)
    (.pure false)

/-- Passes a mark, or fails. -/
def expectMark (mark : String) (expected : Expected) :
    Outline allowance none (Parser.expectMark mark expected) :=
  (nextIsMark [mark]).either .advance (.reject expected)

/-- Passes a word, or fails. -/
def expectWord (word : String) (expected : Expected) :
    Outline allowance none (Parser.expectWord word expected) :=
  (nextIsWord [word]).either .advance (.reject expected)

/-- Reads an identifier, or fails. -/
def identifier (expected : Expected) : Outline allowance none (Parser.identifier expected) :=
  .look (.reject expected) fun lexeme => .anyway <|
  .cond (lexeme.kind = .identifier)
    (fun _ =>
      .bind .advance fun _ =>
      .pure lexeme.text)
    fun _ => .reject expected

/-- Reads a keyword or an identifier, or fails. -/
def word (expected : Expected) : Outline allowance none (Parser.word expected) :=
  .look (.reject expected) fun lexeme => .anyway <|
  .cond (lexeme.isWord = true)
    (fun _ =>
      .bind .advance fun _ =>
      .pure lexeme.text)
    fun _ => .reject expected

/-- Asks for a binary operator of a certain precedence. -/
def nextOperator (precedence : Nat) : Outline allowance known (Parser.nextOperator precedence) :=
  .look (.pure _) fun _ => .pure _

/-- Asks for an empty pair of parentheses. -/
def nextIsFunctionValue : Outline allowance known Parser.nextIsFunctionValue :=
  .both "(" (·.any (·.isMarkOf [")"])) (by decide)

/-- Asks for an angle bracket and a word. -/
def nextAreTypeArguments : Outline allowance known Parser.nextAreTypeArguments :=
  .both "<" (·.any Lexeme.isWord) (by decide)

end Primitives

section Lists

variable {item : Parser α}

/-- Reads a comma and an item, if there is a comma. -/
def nextItem (outline : Outline allowance none item) (items : List α) :
    Outline allowance none (Parser.nextItem item items) :=
  (accept [","]).either
    (.bind outline fun next =>
      .pure (Turn.again (next :: items)))
    (.pure (Turn.finish items))

/-- Reads items with commas between them. -/
def separated (outline : Outline allowance none item) :
    Outline allowance none (Parser.separated item) :=
  .bind outline fun first =>
  .bind (.repeating false [first] (nextItem outline)) fun items =>
  .pure items.reverse

/-- Reads a comma and an item, if there is a comma and the closing mark is not behind it. -/
def nextListed (outline : Outline allowance none item) (closing : String) (items : List α) :
    Outline allowance none (Parser.nextListed item closing items) :=
  (accept [","]).either
    ((nextIsMark [closing]).either
      (.pure (Turn.finish items))
      (.bind outline fun next =>
        .pure (Turn.again (next :: items))))
    (.pure (Turn.finish items))

/-- Reads items up to a closing mark, with commas between them. -/
def listed (outline : Outline allowance none item) (closing : String) :
    Outline allowance none (Parser.listed item closing) :=
  (nextIsMark [closing]).either
    (.pure [])
    (.bind outline fun first =>
      .bind (.repeating false [first] (nextListed outline closing)) fun items =>
      .pure items.reverse)

/-- Reads an item and a separator behind it, unless the closing mark or the end is next. -/
def nextUpTo {item : List α → Parser α} (outline : ∀ items, Outline allowance none (item items))
    (separators : List String) (closing : String) (items : List α) :
    Outline allowance none (Parser.nextUpTo item separators closing items) :=
  (nextIsMark [closing]).either
    (.pure (Turn.finish items))
    (atEnd.either
      (.pure (Turn.finish items))
      (.bind (outline items) fun next =>
        (accept separators).either
          (.pure (Turn.again (next :: items)))
          (.pure (Turn.finish (next :: items)))))

/-- Reads items up to a closing mark or to the end, with separators between them. -/
def upTo {item : List α → Parser α} (outline : ∀ items, Outline allowance none (item items))
    (separators : List String) (closing : String) :
    Outline allowance none (Parser.upTo item separators closing) :=
  .bind (.repeating false [] (nextUpTo outline separators closing)) fun items =>
  .pure items.reverse

variable {levels : Nat} {literals : Bool} {statement : Parser Statement}

/-- A list of statements is at a boundary in each of its rounds. -/
def nextStatement (outline : Outline ⟨true, levels, literals⟩ none statement)
    (closing : List String) (items : List Statement) :
    Outline ⟨true, levels, literals⟩ none (Parser.nextStatement statement closing items) :=
  .boundary <|
  atEnd.either
    (.pure (Turn.finish items))
    ((nextIsMark closing).either
      (.pure (Turn.finish items))
      (.bind outline.recovered.passing fun item =>
        .pure (Turn.again (item :: items))))

/-- Reads statements up to one of some marks or to the end. -/
def statements (outline : Outline ⟨true, levels, literals⟩ none statement)
    (closing : List String) :
    Outline ⟨true, levels, literals⟩ none (Parser.statements statement closing) :=
  .call <|
  .bind (.repeating false [] (nextStatement outline closing)) fun items =>
  .pure items.reverse

end Lists

end Outline

/-- Outlines of the parsers of a layer. -/
structure LayerOutlines (layer : Layer) (levels : Nat) : Type 1 where
  type {literals : Bool} : Outline ⟨false, levels, literals⟩ none layer.type
  expression (literals : Bool) :
    Outline ⟨true, levels, literals⟩ none (layer.expression literals)
  operand (literals : Bool) : Outline ⟨true, levels, literals⟩ none (layer.operand literals)
  statement : Outline ⟨true, levels, true⟩ none layer.statement

/-- Outlines of what is inside a construct, if anything is. -/
inductive InsideOutlines : Option Layer → Nat → Type 1
  | nothing : InsideOutlines none 0
  | layer {layer : Layer} {levels : Nat} : LayerOutlines layer levels →
    InsideOutlines (some layer) (levels + 1)

/-- An outline of what is read one level further in. -/
def InsideOutlines.nested {α : Type} {lists literals : Bool} {levels : Nat}
    {inside : Option Layer} {parser : Layer → Parser α} (outlines : InsideOutlines inside levels)
    (outline : ∀ {layer : Layer} {fewer : Nat}, LayerOutlines layer fewer →
      Outline ⟨lists, fewer, literals⟩ none (parser layer)) :
    Outline ⟨lists, levels, literals⟩ none (BraceLang.nested inside parser) :=
  match outlines with
  | .nothing => .tooDeep parser
  | .layer outlines => .nested (outline outlines)

/-- An outline of what follows a word that begins a statement, if it does. -/
inductive WordOutline (levels : Nat) : Option (Parser Statement) → Type 1
  | word {parser : Parser Statement} : Outline ⟨true, levels, true⟩ none parser →
    WordOutline levels (some parser)
  | other : WordOutline levels none

/-- Passes the word and goes on behind it, or reads what stands where no such word is. -/
def WordOutline.either {levels : Nat} {found : Option (Parser Statement)}
    {otherwise : Parser Statement} (outline : WordOutline levels found)
    (other : Outline ⟨true, levels, true⟩ none otherwise) :
    Outline ⟨true, levels, true⟩ none
      (match found with
      | some parser => Parser.advance >>= fun _ => parser
      | none => otherwise) :=
  match outline with
  | .word behind =>
    .call <|
    .bind .advance fun _ =>
    behind
  | .other => other

namespace InsideOutlines

variable {options : Options} {inside : Option Layer} {levels : Nat} {literals : Bool}
  (outlines : InsideOutlines inside levels)
include outlines

section Types

/-- Reads the arguments of a type, behind the opening angle bracket. -/
def typeArguments : Outline ⟨false, levels, literals⟩ none (Parser.typeArguments inside) :=
  .call <|
  .bind (outlines.nested fun layer => .separated layer.type) fun arguments =>
  .bind (.expectMark ">" .typeArgumentsClosing) fun _ =>
  .pure arguments

/-- Reads a type. -/
def type : Outline ⟨false, levels, literals⟩ none (Parser.type inside) :=
  .call <|
  .bind (.word .typeName) fun name =>
  (Outline.accept ["<"]).either
    (.bind outlines.typeArguments fun arguments =>
      .pure (TypeExpr.mk name arguments))
    (.pure (TypeExpr.mk name []))

/-- Reads a colon and a type, if there is a colon. -/
def annotation : Outline ⟨false, levels, literals⟩ none (Parser.annotation inside) :=
  (Outline.accept [":"]).either
    (.bind outlines.type fun type =>
      .pure (some type))
    (.pure none)

end Types

section Expressions

/-- Reads a block, in which struct literals may begin. -/
def block : Outline ⟨true, levels, literals⟩ none (Parser.block inside) :=
  .call <|
  .bind
    (outlines.nested fun layer =>
      .bind (.expectMark "\x7b" .blockOpening) fun _ =>
      .allowing true <|
      .statements layer.statement ["\x7d"])
    fun body =>
  .bind (.expectMark "\x7d" .blockClosing) fun _ =>
  .pure body

/-- Reads the arguments of a call. -/
def arguments : Outline ⟨true, levels, literals⟩ none (Parser.arguments inside) :=
  .call <|
  outlines.nested fun layer =>
    .bind .advance fun _ =>
    .call <|
    .bind (.allowing true (.listed (layer.expression true) ")")) fun items =>
    .bind (.expectMark ")" .argumentsClosing) fun _ =>
    .pure items

/-- Reads a function value. Its parameters, of which there are none, are a call of their own. -/
def functionValue : Outline ⟨true, levels, literals⟩ none (Parser.functionValue inside) :=
  .call <|
  .bind (.call .advance) fun _ =>
  .bind (.call .advance) fun _ =>
  .bind (.expectMark "->" .returnType) fun _ =>
  .bind (.plain outlines.type) fun returnType =>
  .bind outlines.block fun body =>
  .pure (Expression.function returnType body)

/-- Reads an expression in parentheses. -/
def group : Outline ⟨true, levels, literals⟩ none (Parser.group inside) :=
  outlines.nested fun layer =>
    .bind .advance fun _ =>
    .bind (.allowing true (layer.expression true)) fun value =>
    .bind (.expectMark ")" .groupClosing) fun _ =>
    .pure value

/-- Reads an array. -/
def array : Outline ⟨true, levels, literals⟩ none (Parser.array inside) :=
  outlines.nested fun layer =>
    .bind .advance fun _ =>
    .call <|
    .bind (.allowing true (.listed (layer.expression true) "]")) fun items =>
    .bind (.expectMark "]" .itemsClosing) fun _ =>
    .pure (Expression.array items)

/-- Reads a unary operator and its operand, in which struct literals begin if they do around it. -/
def unary (operator : UnaryOperator) :
    Outline ⟨true, levels, literals⟩ none (Parser.unary inside literals operator) :=
  outlines.nested fun layer =>
    .bind .advance fun _ =>
    .bind (.call (layer.operand literals)) fun operand =>
    .pure (Expression.unary operator operand)

omit outlines in
/-- Reads a field of a struct literal. -/
def literalField {layer : Layer} (outlines : LayerOutlines layer levels) (struct : String)
    (given : List (String × Expression)) :
    Outline ⟨true, levels, true⟩ none (Parser.literalField layer struct given) :=
  .look (.reject .fieldName) fun lexeme => .anyway <|
  .cond (lexeme.kind = .identifier)
    (fun _ =>
      .cond (given.any (·.1 == lexeme.text) = true)
        (fun _ => .rejectPassing (.unsetField struct))
        fun _ =>
          .bind .advance fun _ =>
          (Outline.accept [":"]).either
            (.bind (outlines.expression true) fun value =>
              .pure (lexeme.text, value))
            (.pure (lexeme.text, Expression.name ⟨lexeme.text, []⟩)))
    fun _ => .reject .fieldName

/-- Reads a struct literal behind its name. -/
def structLiteral (name : String) :
    Outline ⟨true, levels, literals⟩ none (Parser.structLiteral inside name) :=
  .call <|
  outlines.nested fun layer =>
    .bind .advance fun _ =>
    .bind (.allowing true (.upTo (literalField layer name) [","] "\x7d")) fun fields =>
    .bind (.expectMark "\x7d" .literalClosing) fun _ =>
    .pure (Expression.structLiteral name fields)

/-- Reads the arguments of a call behind a name, if there are any. -/
def called (name : Name) : Outline ⟨true, levels, literals⟩ none (Parser.called inside name) :=
  (Outline.nextIsMark ["("]).either
    (.bind outlines.arguments fun arguments =>
      .pure (Expression.call name arguments))
    (.pure (Expression.name name))

/-- Reads what may stand behind a name. Whether that is a struct literal is asked here. -/
def named (name : String) :
    Outline ⟨true, levels, literals⟩ none (Parser.named inside literals name) :=
  .asking (Parser.named inside · name) fun answer =>
  .bind (.nextIsMark ["\x7b"]) fun brace =>
  .cond ((answer && brace) = true)
    (fun _ => outlines.structLiteral name)
    fun _ =>
      .bind .nextAreTypeArguments fun generic =>
      .cond ((generic && isGenericName name) = true)
        (fun _ =>
          .bind .advance fun _ =>
          .bind (.plain outlines.typeArguments) fun typeArguments =>
          outlines.called ⟨name, typeArguments⟩)
        fun _ => outlines.called ⟨name, []⟩

omit outlines in
/-- Reports a lexeme that begins no expression, and passes it. -/
def noExpression {allowance : Allowance} : Outline allowance none Parser.noExpression :=
  .bind (.complain .expression) fun complaint =>
  .bind .advance fun _ =>
  .pure (Expression.error complaint)

/-- Reads an expression that begins with a mark, which may be told by what is behind the mark. -/
def marked (lexeme : Lexeme) (hmark : lexeme.isMark = true) :
    Outline ⟨true, levels, literals⟩ (some lexeme)
      (Parser.marked inside literals lexeme.text) :=
  .cond (lexeme.text = "(")
    (fun hopening =>
      .bind (.second (by simp [Lexeme.isMarkOf, hmark, hopening, deciders])) fun second =>
      .cond (second.any (·.isMarkOf [")"]) = true)
        (fun _ => outlines.functionValue)
        fun _ => outlines.group)
    fun _ =>
      .cond (lexeme.text = "[")
        (fun _ => .anyway outlines.array)
        fun _ =>
          match UnaryOperator.ofSpelling? lexeme.text with
          | some operator => .anyway (outlines.unary operator)
          | none => .anyway noExpression

/-- Reads a primary expression. What stands behind a name is read by the call for the name. -/
def primary : Outline ⟨true, levels, literals⟩ none (Parser.primary inside literals) :=
  .call <|
  .look noExpression fun
    | ⟨.number, text⟩ => .anyway <|
      .bind (.numeral text) fun value =>
      .pure (Expression.number value)
    | ⟨.string, text⟩ => .anyway <|
      .bind .advance fun _ =>
      .pure (Expression.string text)
    | ⟨.keyword, text⟩ | ⟨.identifier, text⟩ => .anyway <|
      .cond (text = "true" ∨ text = "false")
        (fun _ =>
          .bind .advance fun _ =>
          .pure (Expression.boolean (text == "true")))
        fun _ =>
          .cond _
            (fun _ =>
              .call <|
              .bind .advance fun _ =>
              outlines.named text)
            fun _ => noExpression
    | ⟨.symbol, text⟩ => outlines.marked ⟨.symbol, text⟩ rfl
    | ⟨.operator, text⟩ => outlines.marked ⟨.operator, text⟩ rfl
    | ⟨.endOfInput, _⟩ => .anyway noExpression

/-- Reads an access to the scope of an expression, if one is next. -/
def nextAccess (scope : Expression) :
    Outline ⟨true, levels, literals⟩ none (Parser.nextAccess inside scope) :=
  (Outline.accept ["::"]).either
    (.call <|
      .bind (.identifier .memberName) fun name =>
      (Outline.nextIsMark ["("]).either
        (.bind outlines.arguments fun arguments =>
          .pure (Turn.again (Expression.memberCall scope name arguments)))
        (.pure (Turn.again (Expression.member scope name))))
    (.pure (Turn.finish scope))

/-- Reads an operand. -/
def operand : Outline ⟨true, levels, literals⟩ none (Parser.operand inside literals) :=
  .bind outlines.primary fun first =>
  .repeating false first outlines.nextAccess

omit outlines in
/-- Reads a binary operator of a certain precedence and what stands behind it, if there is one. What
stands behind it is an expression of its own. -/
def nextOperand {behind : Parser Expression} {allowance : Allowance}
    (outline : Outline allowance none behind) (precedence : Nat) (left : Expression) :
    Outline allowance none (Parser.nextOperand behind precedence left) :=
  .bind (.nextOperator precedence) fun
    | some operator =>
      .bind .advance fun _ =>
      .bind (.call outline) fun right =>
      .pure (Turn.again (Expression.binary left operator right))
    | none => .pure (Turn.finish left)

omit outlines in
/-- Reads a row of operands with binary operators of some of the greatest precedences. -/
def binary {operand : Parser Expression} {allowance : Allowance}
    (outline : Outline allowance none operand) :
    (count : Nat) → Outline allowance none (Parser.binary operand count)
  | 0 => outline
  | count + 1 =>
    .bind (binary outline count) fun first =>
    .repeating false first (nextOperand (binary outline count) (6 - count))

/-- Reads an expression whose operators bind tighter than a minimum. -/
def expressionAbove (minimum : Int) :
    Outline ⟨true, levels, literals⟩ none (Parser.expressionAbove inside literals minimum) :=
  .call <|
  .cond (minimum < 7)
    (fun _ => binary outlines.operand (precedencesAbove minimum))
    fun _ => outlines.primary

/-- Reads an expression. -/
def expression : Outline ⟨true, levels, literals⟩ none (Parser.expression inside literals) :=
  outlines.expressionAbove (-1)

end Expressions

section Statements

omit outlines in
/-- Reads the rest of a statement that is nothing but its word. -/
def closed (statement : Statement) :
    Outline ⟨true, levels, literals⟩ none (Parser.closed statement) :=
  .bind (.expectMark ";" .terminator) fun _ =>
  .pure statement

/-- Reads a declaration behind its word. -/
def declaration (binding : Binding) :
    Outline ⟨true, levels, true⟩ none (Parser.declaration inside binding) :=
  .bind (.identifier .variableName) fun name =>
  .bind (.plain outlines.annotation) fun type =>
  .bind (.expectMark "=" .initializer) fun _ =>
  Outline.nextIsFunctionValue.either
    (.bind outlines.functionValue fun value =>
      Outline.atEnd.either
        (.pure (Statement.declaration binding name type value))
        (.bind (.expectMark ";" .terminator) fun _ =>
          .pure (Statement.declaration binding name type value)))
    (.bind outlines.expression fun value =>
      .bind (.expectMark ";" .terminator) fun _ =>
      .pure (Statement.declaration binding name type value))

/-- Reads a condition, in which struct literals are forbidden. -/
def condition : Outline ⟨true, levels, literals⟩ none (Parser.expression inside false) :=
  .call <| .allowing false outlines.expression

/-- Reads a condition and its block. -/
def branch : Outline ⟨true, levels, literals⟩ none (Parser.branch inside) :=
  .bind outlines.condition fun condition =>
  .bind outlines.block fun body =>
  .pure (Branch.mk condition body)

/-- Reads a further branch, which is a call of its own, or the block for when none is taken. -/
def nextBranch (others : List Branch × Option (List Statement)) :
    Outline ⟨true, levels, literals⟩ none (Parser.nextBranch inside others) :=
  (Outline.nextIsWord ["else"]).either
    (.bind .advance fun _ =>
      (Outline.nextIsWord ["if"]).either
        (.call <|
          .bind .advance fun _ =>
          .bind outlines.branch fun next =>
          .pure (Turn.again (next :: others.1, none)))
        (.bind outlines.block fun body =>
          .pure (Turn.finish (others.1, some body))))
    (.pure (Turn.finish (others.1, none)))

/-- Reads a conditional statement behind its first word. Its branches are a chain of calls. -/
def conditional : Outline ⟨true, levels, literals⟩ none (Parser.conditional inside) :=
  .bind outlines.branch fun first =>
  .bind (.repeating true ([], none) outlines.nextBranch) fun (others, otherwise) =>
  .pure (Statement.conditional first others.reverse otherwise)

/-- Reads a loop over a condition behind its word. -/
def whileLoop : Outline ⟨true, levels, literals⟩ none (Parser.whileLoop inside) :=
  .bind outlines.condition fun condition =>
  .bind outlines.block fun body =>
  .pure (Statement.whileLoop condition body)

omit outlines in
/-- Reads the word that declares a binding. -/
def binding {allowance : Allowance} : Outline allowance none Parser.binding :=
  (Outline.nextIsWord ["let"]).either
    (.bind .advance fun _ =>
      .pure Binding.variable)
    ((Outline.nextIsWord ["const"]).either
      (.bind .advance fun _ =>
        .pure Binding.constant)
      (.reject .loopBinding))

/-- Reads a loop over the items of something behind its word. -/
def forLoop : Outline ⟨true, levels, literals⟩ none (Parser.forLoop inside) :=
  .bind (.plain binding) fun binding =>
  .bind (.identifier .loopVariable) fun name =>
  .bind (.expectWord "in" .loopIn) fun _ =>
  .bind outlines.condition fun iterable =>
  .bind outlines.block fun body =>
  .pure (Statement.forLoop binding name iterable body)

/-- Reads a return behind its word. -/
def returnValue : Outline ⟨true, levels, true⟩ none (Parser.returnValue inside) :=
  (Outline.nextIsMark [";"]).either
    (.bind (.expectMark ";" .terminator) fun _ =>
      .pure (Statement.returnValue none))
    (.bind outlines.expression fun value =>
      .bind (.expectMark ";" .terminator) fun _ =>
      .pure (Statement.returnValue (some value)))

/-- Reads a field of a struct. -/
def structField : Outline ⟨false, levels, literals⟩ none (Parser.structField inside) :=
  .bind (.identifier .fieldName) fun name =>
  .bind (.expectMark ":" .fieldColon) fun _ =>
  .bind outlines.type fun type =>
  .pure (StructField.mk name type)

/-- Reads a struct behind its word. -/
def struct : Outline ⟨false, levels, literals⟩ none (Parser.struct inside) :=
  .bind (.identifier .structName) fun name =>
  .bind (.expectMark "\x7b" .structOpening) fun _ =>
  .bind (.upTo (fun _ => outlines.structField) [",", ";"] "\x7d") fun fields =>
  .bind (.expectMark "\x7d" .structClosing) fun _ =>
  .pure (Statement.struct name fields)

/-- Reads a parameter. -/
def parameter : Outline ⟨false, levels, literals⟩ none (Parser.parameter inside) :=
  .call <|
  .bind (.identifier .parameterName) fun name =>
  .bind outlines.annotation fun type =>
  .pure (Parameter.mk name type)

/-- Reads a list of parameters in parentheses. -/
def parameters : Outline ⟨false, levels, literals⟩ none (Parser.parameters inside) :=
  .call <|
  .bind (.expectMark "(" .parametersOpening) fun _ =>
  .bind (.listed outlines.parameter ")") fun items =>
  .bind (.expectMark ")" .parametersClosing) fun _ =>
  .pure items

/-- Reads an arrow or a colon and the type that is returned. -/
def returnType (stated : Bool) :
    Outline ⟨false, levels, literals⟩ none (Parser.returnType inside stated) :=
  .call <|
  (Outline.accept ["->", ":"]).either
    (.bind outlines.type fun type =>
      .pure (some type))
    (.cond (stated = true)
      (fun _ => .reject .returnType)
      fun _ => .pure none)

/-- Reads a function from its name on. -/
def callable (expected : Expected) (stated : Bool) :
    Outline ⟨true, levels, literals⟩ none (Parser.callable inside expected stated) :=
  .bind (.identifier expected) fun name =>
  .bind (.plain outlines.parameters) fun parameters =>
  .bind (.plain (outlines.returnType stated)) fun returnType =>
  .bind outlines.block fun body =>
  .pure (Function.mk name parameters returnType body)

/-- Reads a function behind its word. -/
def function : Outline ⟨true, levels, literals⟩ none (Parser.function options inside) :=
  .bind (outlines.callable .functionName options.functionsStateReturn) fun function =>
  .pure (Statement.function function)

/-- Reads a method. -/
def method : Outline ⟨true, levels, literals⟩ none (Parser.method options inside) :=
  .call <|
  (Outline.nextIsWord ["fn"]).either
    (.bind .advance fun _ =>
      outlines.callable .methodName options.methodsStateReturn)
    (outlines.callable .methodName options.methodsStateReturn)

/-- Reads a method, unless the closing brace or the end is next. -/
def nextMethod (methods : List Function) :
    Outline ⟨true, levels, literals⟩ none (Parser.nextMethod options inside methods) :=
  (Outline.nextIsMark ["\x7d"]).either
    (.pure (Turn.finish methods))
    (Outline.atEnd.either
      (.pure (Turn.finish methods))
      (.bind outlines.method fun item =>
        .pure (Turn.again (item :: methods))))

/-- Reads the methods of a struct behind their word. -/
def impl : Outline ⟨true, levels, literals⟩ none (Parser.impl options inside) :=
  .bind (.identifier .implTarget) fun name =>
  .bind (.expectMark "\x7b" .implOpening) fun _ =>
  .bind (.repeating false [] outlines.nextMethod) fun methods =>
  .bind (.expectMark "\x7d" .implClosing) fun _ =>
  .pure (Statement.impl name methods.reverse)

/-- Reads an expression that stands as a statement. -/
def expressionStatement :
    Outline ⟨true, levels, true⟩ none (Parser.expressionStatement inside) :=
  .call <|
  .bind outlines.expression fun value =>
  .bind (.expectMark ";" .terminator) fun _ =>
  .pure (Statement.expression value)

/-- What follows a word, if it begins a statement. -/
def behindWord (word : String) : WordOutline levels (Parser.behindWord options inside word) := by
  unfold Parser.behindWord
  split
  · exact .word (outlines.declaration .variable)
  · exact .word (outlines.declaration .constant)
  · exact .word outlines.conditional
  · exact .word outlines.whileLoop
  · exact .word outlines.forLoop
  · exact .word (closed .breakLoop)
  · exact .word (closed .continueLoop)
  · exact .word outlines.returnValue
  · exact .word (.plain outlines.struct)
  · exact .word outlines.impl
  · exact .word outlines.function
  · exact .other

/-- What follows a lexeme, if it is a word that begins a statement. -/
def statementAt (lexeme : Lexeme) :
    WordOutline levels
      (if lexeme.isWord then Parser.behindWord options inside lexeme.text else none) :=
  match lexeme.isWord with
  | true => outlines.behindWord lexeme.text
  | false => .other

/-- Reads a statement, or fails. What the word of a statement leads to is a call of its own. -/
def statement : Outline ⟨true, levels, true⟩ none (Parser.statement options inside) :=
  .call <|
  .look outlines.expressionStatement fun lexeme => .anyway <|
  (outlines.statementAt lexeme).either outlines.expressionStatement

end Statements

/-- The outlines of the layer around. -/
def around : LayerOutlines (.around options inside) levels where
  type := outlines.type
  expression _ := outlines.expression
  operand _ := outlines.operand
  statement := outlines.statement

end InsideOutlines

/-- Outlines of every layer, from the innermost one outwards. -/
def insideOutlines (options : Options) :
    (levels : Nat) → InsideOutlines (layerInside options levels) levels
  | 0 => .nothing
  | levels + 1 => .layer (insideOutlines options levels).around

/-- An outline of programs. -/
def programOutline (options : Options) :
    Outline ⟨true, maxNesting, true⟩ none (Parser.program options) :=
  .call <|
  .statements (insideOutlines options maxNesting).statement []

/-- An outline of what a session is asked for. -/
def Entry.outline (options : Options) (entry : Entry) :
    Outline ⟨true, maxNesting, true⟩ none (entry.parser options) :=
  let outlines := insideOutlines options maxNesting
  match entry with
  | .program =>
    .bind (programOutline options) fun program =>
    .pure (Statement.blockToNode program)
  | .statement =>
    .bind (.recovered outlines.statement) fun statement =>
    .pure statement.toNode
  | .block =>
    .bind outlines.block fun body =>
    .pure (Statement.blockToNode body)
  | .type =>
    .bind (.plain outlines.type) fun type =>
    .pure type.toNode
  | .primary =>
    .bind outlines.primary fun value =>
    .pure value.toNode
  | .expression minimum =>
    .bind (outlines.expressionAbove minimum) fun value =>
    .pure value.toNode

end BraceLang
