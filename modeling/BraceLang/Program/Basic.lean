import BraceLang.Number.Numeral
import BraceLang.Program.Complaint
import BraceLang.Program.Operator

/-!
# Programs

A program is a list of statements. A statement or an expression that could not be parsed stands in
it as the complaint about it.
-/

namespace BraceLang

/-- A type: a name and the types that it is applied to. -/
inductive TypeExpr where
  | mk (name : String) (arguments : List TypeExpr)
  deriving Repr

/-- Whether a name may be given another value. -/
inductive Binding where
  | variable
  | constant
  deriving DecidableEq, Repr

/-- The word that declares a binding. -/
def Binding.word : Binding → String
  | .variable => "let"
  | .constant => "const"

/-- A name in an expression, with type arguments if it has any. -/
structure Name where
  text : String
  typeArguments : List TypeExpr
  deriving Repr

/-- A parameter of a function; its type may be left out. -/
structure Parameter where
  name : String
  type : Option TypeExpr
  deriving Repr

/-- A field of a struct. -/
structure StructField where
  name : String
  type : TypeExpr
  deriving Repr

mutual

/-- Expressions. -/
inductive Expression where
  | number (value : Number)
  | string (text : String)
  | boolean (value : Bool)
  | name (name : Name)
  | array (items : List Expression)
  /-- A struct with values for its fields, each named once. -/
  | structLiteral (name : String) (fields : List (String × Expression))
  | binary (left : Expression) (operator : BinaryOperator) (right : Expression)
  | unary (operator : UnaryOperator) (operand : Expression)
  /-- A name in the scope of an expression. -/
  | member (scope : Expression) (name : String)
  /-- The call of a name in the scope of an expression. -/
  | memberCall (scope : Expression) (name : String) (arguments : List Expression)
  | call (callee : Name) (arguments : List Expression)
  /-- A function without parameters as a value. -/
  | function (returnType : TypeExpr) (body : List Statement)
  | error (complaint : Complaint)
  deriving Repr

/-- Statements. -/
inductive Statement where
  | declaration (binding : Binding) (name : String) (type : Option TypeExpr) (value : Expression)
  /-- Branches that are tried in turn, and a block for when none is taken. -/
  | conditional (first : Branch) (others : List Branch) (otherwise : Option (List Statement))
  | whileLoop (condition : Expression) (body : List Statement)
  | forLoop (binding : Binding) (name : String) (iterable : Expression) (body : List Statement)
  | breakLoop
  | continueLoop
  | returnValue (value : Option Expression)
  | expression (value : Expression)
  | struct (name : String) (fields : List StructField)
  | impl (name : String) (methods : List Function)
  | function (function : Function)
  | error (complaint : Complaint)
  deriving Repr

/-- A condition and the block that it guards. -/
inductive Branch where
  | mk (condition : Expression) (body : List Statement)
  deriving Repr

/-- A function or method with a name; its return type may be left out where the grammar permits. -/
inductive Function where
  | mk (name : String) (parameters : List Parameter) (returnType : Option TypeExpr)
    (body : List Statement)
  deriving Repr

end

/-- Which declarations have to state a return type. -/
structure Options where
  functionsStateReturn : Bool := true
  methodsStateReturn : Bool := false
  deriving DecidableEq, Repr

end BraceLang
