import BraceLang.Parser.Expression

/-!
# Printing programs

A program is printed in a form that leaves no doubt: the operands of operations and of scope
accesses, the conditions, and the expressions that are statements stand in parentheses. Lists have
no comma behind their last item. Whether a method is printed with the word in front is left open,
but one that is named like the word needs it.

Not every program can be printed. One that can has no complaint in it, its numbers are natural, its
fields are named once, and what its options ask for is stated. How deep it is nested is told by the
levels that are open at once.
-/

namespace BraceLang

/-- A mark: one of a single character is a symbol, any other an operator. -/
def Lexeme.mark (text : String) : Lexeme :=
  ⟨if text.length = 1 then .symbol else .operator, text⟩

/-- A word of the language. -/
def Lexeme.keyword (text : String) : Lexeme := ⟨.keyword, text⟩

/-- A name. -/
def Lexeme.identifier (text : String) : Lexeme := ⟨.identifier, text⟩

/-- The name of a function. -/
def Function.name : Function → String
  | .mk name _ _ _ => name

namespace Printing

open Lexeme

/-- A row between two marks. -/
def enclosed (opening closing : String) (row : List Lexeme) : List Lexeme :=
  mark opening :: (row ++ [mark closing])

/-- Rows with commas between them. -/
def separated (rows : List (List Lexeme)) : List Lexeme := [mark ","].intercalate rows

/-- The numeral of a number, if it is natural. -/
def numeral : Number → String
  | .integer value => value.toNat.repr
  | .real _ => ""

mutual

/-- A type. -/
def type : TypeExpr → List Lexeme
  | .mk name arguments => identifier name :: typeArguments arguments

/-- The arguments of a type, if it has any. -/
def typeArguments : List TypeExpr → List Lexeme
  | [] => []
  | first :: rest => enclosed "<" ">" (separated (type first :: types rest))

/-- Types, each on its own. -/
def types : List TypeExpr → List (List Lexeme)
  | [] => []
  | first :: rest => type first :: types rest

end

/-- A mark and a type, if there is one. -/
def stated (text : String) : Option TypeExpr → List Lexeme
  | none => []
  | some stated => mark text :: type stated

/-- A name with its type arguments. -/
def named (name : Name) : List Lexeme := identifier name.text :: typeArguments name.typeArguments

/-- A parameter. -/
def parameter (parameter : Parameter) : List Lexeme :=
  identifier parameter.name :: stated ":" parameter.type

/-- A field of a struct. -/
def structField (field : StructField) : List Lexeme :=
  identifier field.name :: mark ":" :: type field.type

/-- A method behind the word for functions, if methods of its name have it or are named like it. -/
def withWord (worded : String → Bool) (name : String) (method : List Lexeme) : List Lexeme :=
  if worded name || name == "fn" then keyword "fn" :: method else method

section

variable (worded : String → Bool)

mutual

/-- An expression. -/
@[simp] def expression : Expression → List Lexeme
  | .number value => [⟨.number, numeral value⟩]
  | .string text => [⟨.string, text⟩]
  | .boolean value => [identifier (if value then "true" else "false")]
  | .name value => named value
  | .array items => enclosed "[" "]" (separated (expressions items))
  | .structLiteral struct given =>
    identifier struct :: enclosed "\x7b" "\x7d" (separated (fields given))
  | .binary left operator right =>
    enclosed "(" ")" (expression left) ++
      mark operator.spelling :: enclosed "(" ")" (expression right)
  | .unary operator operand => mark operator.spelling :: enclosed "(" ")" (expression operand)
  | .member scope member =>
    enclosed "(" ")" (expression scope) ++ [mark "::", identifier member]
  | .memberCall scope member arguments =>
    enclosed "(" ")" (expression scope) ++
      mark "::" :: identifier member :: enclosed "(" ")" (separated (expressions arguments))
  | .call callee arguments => named callee ++ enclosed "(" ")" (separated (expressions arguments))
  | .function returnType body =>
    mark "(" :: mark ")" :: mark "->" :: (type returnType ++
      enclosed "\x7b" "\x7d" (statements body))
  | .error _ => []

/-- Expressions, each on its own. -/
@[simp] def expressions : List Expression → List (List Lexeme)
  | [] => []
  | first :: rest => expression first :: expressions rest

/-- The fields of a struct literal, each on its own. -/
@[simp] def fields : List (String × Expression) → List (List Lexeme)
  | [] => []
  | (field, value) :: rest => (identifier field :: mark ":" :: expression value) :: fields rest

/-- A statement. -/
@[simp] def statement : Statement → List Lexeme
  | .declaration binding name type value =>
    keyword binding.word :: identifier name ::
      (stated ":" type ++ mark "=" :: (expression value ++ [mark ";"]))
  | .conditional first others otherwise =>
    keyword "if" :: (branch first ++ (branches others ++ alternative otherwise))
  | .whileLoop condition body =>
    keyword "while" ::
      (enclosed "(" ")" (expression condition) ++ enclosed "\x7b" "\x7d" (statements body))
  | .forLoop binding name iterable body =>
    keyword "for" :: keyword binding.word :: identifier name :: keyword "in" ::
      (enclosed "(" ")" (expression iterable) ++ enclosed "\x7b" "\x7d" (statements body))
  | .breakLoop => [keyword "break", mark ";"]
  | .continueLoop => [keyword "continue", mark ";"]
  | .returnValue none => [keyword "return", mark ";"]
  | .returnValue (some value) => keyword "return" :: (expression value ++ [mark ";"])
  | .expression value => enclosed "(" ")" (expression value) ++ [mark ";"]
  | .struct struct fields =>
    keyword "struct" :: identifier struct ::
      enclosed "\x7b" "\x7d" (separated (fields.map structField))
  | .impl struct items =>
    keyword "impl" :: identifier struct :: enclosed "\x7b" "\x7d" (methods items)
  | .function item => keyword "fn" :: function item
  | .error _ => []

/-- Statements one behind the other. -/
@[simp] def statements : List Statement → List Lexeme
  | [] => []
  | first :: rest => statement first ++ statements rest

/-- The block for when no branch is taken, if there is one. -/
@[simp] def alternative : Option (List Statement) → List Lexeme
  | none => []
  | some body => keyword "else" :: enclosed "\x7b" "\x7d" (statements body)

/-- A condition and its block. -/
@[simp] def branch : Branch → List Lexeme
  | .mk condition body =>
    enclosed "(" ")" (expression condition) ++ enclosed "\x7b" "\x7d" (statements body)

/-- The branches behind the first. -/
@[simp] def branches : List Branch → List Lexeme
  | [] => []
  | first :: rest => keyword "else" :: keyword "if" :: (branch first ++ branches rest)

/-- A function from its name on. -/
@[simp] def function : Function → List Lexeme
  | .mk name parameters returnType body =>
    identifier name :: (enclosed "(" ")" (separated (parameters.map parameter)) ++
      (stated "->" returnType ++ enclosed "\x7b" "\x7d" (statements body)))

/-- Methods one behind the other. -/
@[simp] def methods : List Function → List Lexeme
  | [] => []
  | first :: rest => withWord worded first.name (function first) ++ methods rest

end

end

end Printing

/-- Whether a numeral of the number is short enough to be read. -/
def Number.isPrintable : Number → Bool
  | .integer value =>
    decide (0 ≤ value) && decide ((Nat.toDigits 10 value.toNat).length ≤ Numeral.maxDigits)
  | .real _ => false

/-- Whether a text is no truth value. -/
def isPlainName (text : String) : Bool := text != "true" && text != "false"

/-- Whether a name may have the type arguments that it has. -/
def Name.isPrintable (name : Name) : Bool :=
  isPlainName name.text && (name.typeArguments.isEmpty || Parser.isGenericName name.text)

section

variable (options : Options)

mutual

/-- Whether an expression can be printed. -/
def Expression.isPrintable : Expression → Bool
  | .number value => value.isPrintable
  | .string _ | .boolean _ => true
  | .name name => name.isPrintable
  | .array items => Expression.arePrintable items
  | .structLiteral name fields =>
    isPlainName name && decide (fields.map Prod.fst).Nodup && Expression.fieldsArePrintable fields
  | .binary left _ right => left.isPrintable && right.isPrintable
  | .unary _ operand => operand.isPrintable
  | .member scope _ => scope.isPrintable
  | .memberCall scope _ arguments => scope.isPrintable && Expression.arePrintable arguments
  | .call callee arguments => callee.isPrintable && Expression.arePrintable arguments
  | .function _ body => Statement.arePrintable body
  | .error _ => false

/-- Whether all of some expressions can be printed. -/
def Expression.arePrintable : List Expression → Bool
  | [] => true
  | first :: rest => first.isPrintable && Expression.arePrintable rest

/-- Whether the values of all of some fields can be printed. -/
def Expression.fieldsArePrintable : List (String × Expression) → Bool
  | [] => true
  | (_, value) :: rest => value.isPrintable && Expression.fieldsArePrintable rest

/-- Whether a statement can be printed. -/
def Statement.isPrintable : Statement → Bool
  | .declaration _ _ _ value => value.isPrintable
  | .conditional first others otherwise =>
    first.isPrintable && Branch.arePrintable others && Statement.otherwiseIsPrintable otherwise
  | .whileLoop condition body => condition.isPrintable && Statement.arePrintable body
  | .forLoop _ _ iterable body => iterable.isPrintable && Statement.arePrintable body
  | .breakLoop | .continueLoop | .returnValue none | .struct .. => true
  | .returnValue (some value) => value.isPrintable
  | .expression value => value.isPrintable
  | .impl _ methods => Function.arePrintable methods
  | .function function => function.isPrintable options.functionsStateReturn
  | .error _ => false

/-- Whether all of some statements can be printed. -/
def Statement.arePrintable : List Statement → Bool
  | [] => true
  | first :: rest => first.isPrintable && Statement.arePrintable rest

/-- Whether a block can be printed, if there is one. -/
def Statement.otherwiseIsPrintable : Option (List Statement) → Bool
  | none => true
  | some body => Statement.arePrintable body

/-- Whether a branch can be printed. -/
def Branch.isPrintable : Branch → Bool
  | .mk condition body => condition.isPrintable && Statement.arePrintable body

/-- Whether all of some branches can be printed. -/
def Branch.arePrintable : List Branch → Bool
  | [] => true
  | first :: rest => first.isPrintable && Branch.arePrintable rest

/-- Whether a function can be printed that may have to state its return type. -/
def Function.isPrintable : Function → Bool → Bool
  | .mk _ _ returnType body, stated =>
    (returnType.isSome || !stated) && Statement.arePrintable body

/-- Whether all of some methods can be printed. -/
def Function.arePrintable : List Function → Bool
  | [] => true
  | first :: rest =>
    first.isPrintable options.methodsStateReturn && Function.arePrintable rest

end

end

mutual

/-- How many levels a type opens at once. -/
def TypeExpr.levels : TypeExpr → Nat
  | .mk _ arguments => TypeExpr.argumentLevels arguments

/-- How many levels the arguments of a type open at once, with the one that they open together. -/
def TypeExpr.argumentLevels : List TypeExpr → Nat
  | [] => 0
  | first :: rest => max first.levels (TypeExpr.maxLevels rest) + 1

/-- How many levels each of some types opens at most. -/
def TypeExpr.maxLevels : List TypeExpr → Nat
  | [] => 0
  | first :: rest => max first.levels (TypeExpr.maxLevels rest)

end

/-- How many levels a type opens at once, if there is one. -/
def TypeExpr.statedLevels : Option TypeExpr → Nat
  | none => 0
  | some stated => stated.levels

/-- How many levels each of some parameters opens at most. -/
def Parameter.maxLevels : List Parameter → Nat
  | [] => 0
  | first :: rest => max (TypeExpr.statedLevels first.type) (Parameter.maxLevels rest)

mutual

/-- How many levels an expression opens at once when it is printed: those of parentheses, brackets,
braces, type arguments and unary operators. -/
def Expression.levels : Expression → Nat
  | .number _ | .string _ | .boolean _ | .error _ => 0
  | .name name => TypeExpr.argumentLevels name.typeArguments
  | .array items => Expression.maxLevels items + 1
  | .structLiteral _ fields => Expression.maxFieldLevels fields + 1
  | .binary left _ right => max left.levels right.levels + 1
  | .unary _ operand => operand.levels + 2
  | .member scope _ => scope.levels + 1
  | .memberCall scope _ arguments => max scope.levels (Expression.maxLevels arguments) + 1
  | .call callee arguments =>
    max (TypeExpr.argumentLevels callee.typeArguments) (Expression.maxLevels arguments + 1)
  | .function returnType body => max returnType.levels (Statement.maxLevels body + 1)

/-- How many levels each of some expressions opens at most. -/
def Expression.maxLevels : List Expression → Nat
  | [] => 0
  | first :: rest => max first.levels (Expression.maxLevels rest)

/-- How many levels the value of each of some fields opens at most. -/
def Expression.maxFieldLevels : List (String × Expression) → Nat
  | [] => 0
  | (_, value) :: rest => max value.levels (Expression.maxFieldLevels rest)

/-- How many levels a statement opens at once when it is printed. -/
def Statement.levels : Statement → Nat
  | .declaration _ _ type value => max (TypeExpr.statedLevels type) value.levels
  | .conditional first others otherwise =>
    max first.levels (max (Branch.maxLevels others) (Statement.otherwiseLevels otherwise))
  | .whileLoop condition body => max condition.levels (Statement.maxLevels body) + 1
  | .forLoop _ _ iterable body => max iterable.levels (Statement.maxLevels body) + 1
  | .breakLoop | .continueLoop | .returnValue none | .error _ => 0
  | .returnValue (some value) => value.levels
  | .expression value => value.levels + 1
  | .struct _ fields => TypeExpr.maxLevels (fields.map StructField.type)
  | .impl _ methods => Function.maxLevels methods
  | .function function => function.levels

/-- How many levels each of some statements opens at most. -/
def Statement.maxLevels : List Statement → Nat
  | [] => 0
  | first :: rest => max first.levels (Statement.maxLevels rest)

/-- How many levels a block opens at once, if there is one. -/
def Statement.otherwiseLevels : Option (List Statement) → Nat
  | none => 0
  | some body => Statement.maxLevels body + 1

/-- How many levels a branch opens at once. -/
def Branch.levels : Branch → Nat
  | .mk condition body => max condition.levels (Statement.maxLevels body) + 1

/-- How many levels each of some branches opens at most. -/
def Branch.maxLevels : List Branch → Nat
  | [] => 0
  | first :: rest => max first.levels (Branch.maxLevels rest)

/-- How many levels a function opens at once. -/
def Function.levels : Function → Nat
  | .mk _ parameters returnType body =>
    max (Parameter.maxLevels parameters)
      (max (TypeExpr.statedLevels returnType) (Statement.maxLevels body + 1))

/-- How many levels each of some methods opens at most. -/
def Function.maxLevels : List Function → Nat
  | [] => 0
  | first :: rest => max first.levels (Function.maxLevels rest)

end

end BraceLang
