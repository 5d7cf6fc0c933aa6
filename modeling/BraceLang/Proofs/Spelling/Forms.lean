import BraceLang.Program.Basic
import Mathlib.Computability.Language

/-!
# How programs are spelled

The spellings of a program are a language over lexemes, given by recursion on the program: one form
for each kind of statement, expression and type. The liberties of a writer are part of the forms:
parentheses around expressions, a comma behind the last item of a list, the two separators of
struct fields, the two marks in front of a return type, the word in front of a method, and the
short form of a field that is named like its value.

A complaint has no spelling, so a program with a spelling has no complaint in it.
-/

namespace BraceLang

open Language

/-- Rows of lexemes. -/
abbrev Spellings := Language Lexeme

namespace Spellings

/-- A mark, as a symbol or an operator. -/
def mark (text : String) : Spellings :=
  {row | ∃ lexeme, lexeme.isMarkOf [text] = true ∧ row = [lexeme]}

/-- A word, as a keyword or an identifier. -/
def word (text : String) : Spellings :=
  {row | ∃ lexeme, lexeme.isWordOf [text] = true ∧ row = [lexeme]}

/-- An identifier. -/
def identifier (text : String) : Spellings := {row | row = [⟨.identifier, text⟩]}

/-- A quoted text. -/
def quoted (text : String) : Spellings := {row | row = [⟨.string, text⟩]}

/-- A numeral of a value. -/
def numeral (value : Number) : Spellings :=
  {row | ∃ text, Numeral.read text = .ok value ∧ row = [⟨.number, text⟩]}

/-- Something that may be left out. -/
def optional (spellings : Spellings) : Spellings := 1 + spellings

/-- Something in any number of pairs of parentheses. -/
def grouped (spellings : Spellings) : Spellings :=
  {row | ∃ pairs : Nat, row ∈ mark "(" ^ pairs * spellings * mark ")" ^ pairs}

/-- Items with commas between them, given the first and those behind it with their commas. A comma
may stand behind the last one. -/
def listed (first behind : Spellings) : Spellings := first * behind * optional (mark ",")

/-- Something in braces. -/
def braced (spellings : Spellings) : Spellings := mark "\x7b" * spellings * mark "\x7d"

/-- Something in parentheses. -/
def parenthesized (spellings : Spellings) : Spellings := mark "(" * spellings * mark ")"

/-- A function value: an empty pair of parentheses, an arrow, a type and a block. -/
def functionValue (returnType body : Spellings) : Spellings :=
  parenthesized 1 * mark "->" * returnType * body

end Spellings

open Spellings

mutual

/-- A type: its name, and in angle brackets the types that it is applied to. -/
def TypeExpr.spellings : TypeExpr → Spellings
  | .mk name arguments => word name * TypeExpr.argumentSpellings arguments

/-- The arguments of a type in their brackets, if there are any. -/
def TypeExpr.argumentSpellings : List TypeExpr → Spellings
  | [] => 1
  | first :: behind => mark "<" * (first.spellings * TypeExpr.behindSpellings behind) * mark ">"

/-- Types, each behind a comma. -/
def TypeExpr.behindSpellings : List TypeExpr → Spellings
  | [] => 1
  | type :: behind => mark "," * type.spellings * TypeExpr.behindSpellings behind

end

/-- A colon and a type, or nothing. -/
def TypeExpr.annotationSpellings : Option TypeExpr → Spellings
  | none => 1
  | some type => mark ":" * type.spellings

/-- An arrow or a colon and a type, or nothing. -/
def TypeExpr.returnSpellings : Option TypeExpr → Spellings
  | none => 1
  | some type => (mark "->" + mark ":") * type.spellings

/-- A name with its type arguments. -/
def Name.spellings (name : Name) : Spellings :=
  identifier name.text * TypeExpr.argumentSpellings name.typeArguments

/-- A parameter: its name and its type, if it is stated. -/
def Parameter.spellings (parameter : Parameter) : Spellings :=
  identifier parameter.name * TypeExpr.annotationSpellings parameter.type

/-- Parameters, each behind a comma. -/
def Parameter.behindSpellings : List Parameter → Spellings
  | [] => 1
  | parameter :: behind => mark "," * parameter.spellings * Parameter.behindSpellings behind

/-- The parameters of a function. -/
def Parameter.listSpellings : List Parameter → Spellings
  | [] => 1
  | first :: behind => listed first.spellings (Parameter.behindSpellings behind)

/-- A field of a struct: its name and its type. -/
def StructField.spellings (field : StructField) : Spellings :=
  identifier field.name * mark ":" * field.type.spellings

/-- Fields of a struct, each behind a comma or a semicolon. -/
def StructField.behindSpellings : List StructField → Spellings
  | [] => 1
  | field :: behind =>
    (mark "," + mark ";") * field.spellings * StructField.behindSpellings behind

/-- The fields of a struct. -/
def StructField.listSpellings : List StructField → Spellings
  | [] => 1
  | first :: behind =>
    first.spellings * StructField.behindSpellings behind * optional (mark "," + mark ";")

/-- The short form of a field of a struct literal, if its value is a name like its own. -/
def Expression.shortForm (name : String) (value : Expression) : Spellings :=
  {row | value = .name ⟨name, []⟩ ∧ row ∈ identifier name}

/-- A field of a struct literal, given the spellings of its value: the name, a colon and the value,
or the short form. -/
def Expression.fieldForm (name : String) (value : Expression) (spellings : Spellings) : Spellings :=
  identifier name * mark ":" * spellings + shortForm name value

mutual

/-- An expression, in any number of parentheses. -/
@[simp] def Expression.spellings : Expression → Spellings
  | .number value => grouped (numeral value)
  | .string text => grouped (quoted text)
  | .boolean value => grouped (word (if value then "true" else "false"))
  | .name name => grouped name.spellings
  | .array items => grouped (mark "[" * Expression.listSpellings items * mark "]")
  | .structLiteral name fields =>
    grouped (identifier name * braced (Expression.fieldSpellings fields))
  | .binary left operator right =>
    grouped (left.spellings * mark operator.spelling * right.spellings)
  | .unary operator operand => grouped (mark operator.spelling * operand.spellings)
  | .member scope name => grouped (scope.spellings * mark "::" * identifier name)
  | .memberCall scope name arguments =>
    grouped (scope.spellings * mark "::" *
      (identifier name * parenthesized (Expression.listSpellings arguments)))
  | .call callee arguments =>
    grouped (callee.spellings * parenthesized (Expression.listSpellings arguments))
  | .function returnType body =>
    grouped (functionValue returnType.spellings (braced (Statement.rowSpellings body)))
  | .error _ => 0

/-- Expressions, each behind a comma. -/
@[simp] def Expression.behindSpellings : List Expression → Spellings
  | [] => 1
  | item :: behind => mark "," * item.spellings * Expression.behindSpellings behind

/-- The items of a list of expressions. -/
@[simp] def Expression.listSpellings : List Expression → Spellings
  | [] => 1
  | first :: behind => listed first.spellings (Expression.behindSpellings behind)

/-- The fields of a struct literal, each behind a comma. -/
@[simp] def Expression.behindFieldSpellings : List (String × Expression) → Spellings
  | [] => 1
  | (name, value) :: behind =>
    mark "," * Expression.fieldForm name value value.spellings *
      Expression.behindFieldSpellings behind

/-- The fields of a struct literal. -/
@[simp] def Expression.fieldSpellings : List (String × Expression) → Spellings
  | [] => 1
  | (name, value) :: behind =>
    listed (Expression.fieldForm name value value.spellings)
      (Expression.behindFieldSpellings behind)

/-- A statement. -/
@[simp] def Statement.spellings : Statement → Spellings
  | .declaration binding name type value =>
    word binding.word * identifier name * TypeExpr.annotationSpellings type * mark "=" *
      value.spellings * mark ";"
  | .conditional first others otherwise =>
    word "if" * first.spellings * Branch.behindSpellings others *
      Statement.otherwiseSpellings otherwise
  | .whileLoop condition body =>
    word "while" * condition.spellings * braced (Statement.rowSpellings body)
  | .forLoop binding name iterable body =>
    word "for" * word binding.word * identifier name * word "in" * iterable.spellings *
      braced (Statement.rowSpellings body)
  | .breakLoop => word "break" * mark ";"
  | .continueLoop => word "continue" * mark ";"
  | .returnValue none => word "return" * mark ";"
  | .returnValue (some value) => word "return" * value.spellings * mark ";"
  | .expression value => value.spellings * mark ";"
  | .struct name fields =>
    word "struct" * identifier name * braced (StructField.listSpellings fields)
  | .impl name methods =>
    word "impl" * identifier name * braced (Function.methodSpellings methods)
  | .function function => word "fn" * function.spellings
  | .error _ => 0

/-- Statements one behind the other. -/
@[simp] def Statement.rowSpellings : List Statement → Spellings
  | [] => 1
  | statement :: behind => statement.spellings * Statement.rowSpellings behind

/-- The block for when no branch is taken, if there is one. -/
@[simp] def Statement.otherwiseSpellings : Option (List Statement) → Spellings
  | none => 1
  | some body => word "else" * braced (Statement.rowSpellings body)

/-- A condition and its block. -/
@[simp] def Branch.spellings : Branch → Spellings
  | .mk condition body => condition.spellings * braced (Statement.rowSpellings body)

/-- The branches behind the first. -/
@[simp] def Branch.behindSpellings : List Branch → Spellings
  | [] => 1
  | branch :: behind =>
    word "else" * word "if" * branch.spellings * Branch.behindSpellings behind

/-- A function from its name on. -/
@[simp] def Function.spellings : Function → Spellings
  | .mk name parameters returnType body =>
    identifier name * parenthesized (Parameter.listSpellings parameters) *
      TypeExpr.returnSpellings returnType * braced (Statement.rowSpellings body)

/-- Methods, each with or without the word for functions. -/
@[simp] def Function.methodSpellings : List Function → Spellings
  | [] => 1
  | method :: behind =>
    optional (word "fn") * method.spellings * Function.methodSpellings behind

end

/-- The form of a declaration of a function value without the semicolon, which is for the end of a
program only. -/
def Statement.unclosedSpellings : Statement → Spellings
  | .declaration binding name type (.function returnType body) =>
    word binding.word * identifier name * TypeExpr.annotationSpellings type * mark "=" *
      functionValue returnType.spellings (braced (Statement.rowSpellings body))
  | _ => 0

/-- A program: statements one behind the other, of which the last may be unclosed. -/
def Statement.programSpellings : List Statement → Spellings
  | [] => 1
  | [statement] => statement.spellings + statement.unclosedSpellings
  | statement :: behind => statement.spellings * Statement.programSpellings behind

end BraceLang
