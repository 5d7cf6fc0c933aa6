import BraceLang.Lexeme

/-!
# Complaints

What the parser finds wrong with a program: a lexeme where another one is expected, or nesting
beyond the limit. A complaint without a lexeme is about the end of the input.
-/

namespace BraceLang

/-- How many levels of blocks, brackets, type arguments and unary operators may be open at once. -/
def maxNesting : Nat := 64

/-- What the parser expects at a place. -/
inductive Expected where
  | blockOpening
  | blockClosing
  | variableName
  | initializer
  | terminator
  | loopBinding
  | loopVariable
  | loopIn
  | structName
  | structOpening
  | structClosing
  | fieldName
  | fieldColon
  | implTarget
  | implOpening
  | implClosing
  | methodName
  | functionName
  | parametersOpening
  | parametersClosing
  | parameterName
  | returnType
  | typeName
  | typeArgumentsClosing
  | expression
  | memberName
  | groupClosing
  | argumentsClosing
  | itemsClosing
  /-- A field that the literal of a struct does not give already. -/
  | unsetField (struct : String)
  | literalClosing
  deriving DecidableEq, Repr

/-- The wording of an expectation. -/
def Expected.description : Expected → String
  | .blockOpening => "'\x7b' to open a block"
  | .blockClosing => "'\x7d' to close the block"
  | .variableName => "a variable name"
  | .initializer => "'=' after the variable name"
  | .terminator => "';' at end of statement"
  | .loopBinding => "'let' or 'const' after 'for'"
  | .loopVariable => "a loop variable name"
  | .loopIn => "'in'"
  | .structName => "a struct name"
  | .structOpening => "'\x7b' after the struct name"
  | .structClosing => "'\x7d' to close the struct"
  | .fieldName => "a field name"
  | .fieldColon => "':' after the field name"
  | .implTarget => "a struct name after 'impl'"
  | .implOpening => "'\x7b' after the impl target"
  | .implClosing => "'\x7d' to close the impl block"
  | .methodName => "a method name"
  | .functionName => "a function name"
  | .parametersOpening => "'(' to open the parameter list"
  | .parametersClosing => "')' to close the parameter list"
  | .parameterName => "a parameter name"
  | .returnType => "'->' and a return type"
  | .typeName => "a type name"
  | .typeArgumentsClosing => "'>' to close the type arguments"
  | .expression => "an expression"
  | .memberName => "a name after '::'"
  | .groupClosing => "')' after expression"
  | .argumentsClosing => "')'"
  | .itemsClosing => "']'"
  | .unsetField struct => "a field of '" ++ struct ++ "' that is not already set"
  | .literalClosing => "'\x7d' to close the struct literal"

/-- What is wrong at a lexeme, or at the end of the input. -/
inductive Complaint where
  | unexpected (found : Option Lexeme) (expected : Expected)
  | nestingTooDeep (found : Option Lexeme)
  deriving DecidableEq, Repr

namespace Complaint

/-- How messages name what was found. -/
def foundText : Option Lexeme → String
  | some lexeme => lexeme.description
  | none => "end of input"

/-- The wording of a complaint. -/
def message : Complaint → String
  | .unexpected found expected =>
    "Unexpected token " ++ foundText found ++ ", expected " ++ expected.description
  | .nestingTooDeep found =>
    "Unexpected token " ++ foundText found ++ s!", nesting too deep (limit {maxNesting})"

end Complaint

end BraceLang
