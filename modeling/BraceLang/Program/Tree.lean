import BraceLang.Program.Basic
import BraceLang.Tree.Node

/-!
# Programs as trees

The tree view of each construct of a program.
-/

namespace BraceLang

open BraceLang.Tree (Node Value Tag)

mutual

/-- A type as a node. -/
def TypeExpr.toNode : TypeExpr → Node
  | .mk name arguments =>
    ⟨.type, .named [("name", .text name), ("arguments", .list (TypeExpr.toValues arguments))]⟩

/-- Types as values. -/
def TypeExpr.toValues : List TypeExpr → List Value
  | [] => []
  | type :: rest => type.toNode.toValue :: TypeExpr.toValues rest

end

/-- A type that may be left out as a value. -/
def TypeExpr.optionToValue : Option TypeExpr → Value
  | some type => type.toNode.toValue
  | none => .atom .null

/-- A number as an atom. -/
def Number.toAtom : Number → Atom
  | .integer value => .integer value
  | .real value => .real value

/-- A name as a node: an identifier, or a generic type if it has type arguments. -/
def Name.toNode (name : Name) : Node :=
  match name.typeArguments with
  | [] => ⟨.identifier, .text name.text⟩
  | arguments =>
    ⟨.generic,
      .named [("name", .text name.text), ("arguments", .list (TypeExpr.toValues arguments))]⟩

/-- A parameter as a node. -/
def Parameter.toNode (parameter : Parameter) : Node :=
  ⟨.parameter,
    .named [("name", .text parameter.name), ("type", TypeExpr.optionToValue parameter.type)]⟩

/-- A field of a struct as a node. -/
def StructField.toNode (field : StructField) : Node :=
  ⟨.structField, .named [("name", .text field.name), ("type", field.type.toNode.toValue)]⟩

/-- A complaint as a node. -/
def Complaint.toNode (complaint : Complaint) : Node :=
  ⟨.error, .text complaint.message⟩

namespace Tree.Node

/-- The node of a call. -/
def call (callee : Node) (arguments : List Value) : Node :=
  ⟨.call, .named [("callee", callee.toValue), ("arguments", .list arguments)]⟩

/-- The node of an access to the scope of another node. -/
def scope (scope member : Node) : Node :=
  ⟨.scope, .named [("namespace", scope.toValue), ("member", member.toValue)]⟩

/-- The node of a block. -/
def block (statements : List Value) : Node := ⟨.block, .list statements⟩

/-- The node of a conditional statement. -/
def conditional (condition body : Node) (otherwise : Value) : Node :=
  ⟨.conditional,
    .named [("condition", condition.toValue), ("then", body.toValue), ("else", otherwise)]⟩

end Tree.Node

mutual

/-- An expression as a node. -/
def Expression.toNode : Expression → Node
  | .number value => ⟨.number, .atom value.toAtom⟩
  | .string text => ⟨.string, .text text⟩
  | .boolean value => ⟨.boolean, .atom (.boolean value)⟩
  | .name name => name.toNode
  | .array items => ⟨.array, .list (Expression.toValues items)⟩
  | .structLiteral name fields =>
    ⟨.structLiteral,
      .named [("name", .text name), ("fields", .record (Expression.fieldsToValues fields))]⟩
  | .binary left operator right =>
    ⟨.binary,
      .named [("left", left.toNode.toValue), ("operator", .text operator.spelling),
        ("right", right.toNode.toValue)]⟩
  | .unary operator operand =>
    ⟨.unary,
      .named [("operator", .text operator.spelling), ("operand", operand.toNode.toValue)]⟩
  | .member scope name => .scope scope.toNode ⟨.identifier, .text name⟩
  | .memberCall scope name arguments =>
    .scope scope.toNode (.call ⟨.identifier, .text name⟩ (Expression.toValues arguments))
  | .call callee arguments => .call callee.toNode (Expression.toValues arguments)
  | .function returnType body =>
    ⟨.functionValue,
      .named [("parameters", .list []), ("return_type", returnType.toNode.toValue),
        ("body", (Node.block (Statement.toValues body)).toValue)]⟩
  | .error complaint => complaint.toNode

/-- Expressions as values. -/
def Expression.toValues : List Expression → List Value
  | [] => []
  | expression :: rest => expression.toNode.toValue :: Expression.toValues rest

/-- Named expressions as fields. -/
def Expression.fieldsToValues : List (String × Expression) → List (Atom × Value)
  | [] => []
  | (name, expression) :: rest =>
    (.text name, expression.toNode.toValue) :: Expression.fieldsToValues rest

/-- A statement as a node. -/
def Statement.toNode : Statement → Node
  | .declaration binding name type value =>
    ⟨.variable,
      .named [("kind", .text binding.word), ("name", .text name),
        ("type", TypeExpr.optionToValue type), ("value", value.toNode.toValue)]⟩
  | .conditional (.mk condition body) others otherwise =>
    .conditional condition.toNode (.block (Statement.toValues body))
      (Branch.toValue others (Statement.otherwiseToValue otherwise))
  | .whileLoop condition body =>
    ⟨.whileLoop,
      .named [("condition", condition.toNode.toValue),
        ("body", (Node.block (Statement.toValues body)).toValue)]⟩
  | .forLoop binding name iterable body =>
    ⟨.forLoop,
      .named [("kind", .text binding.word), ("variable", .text name),
        ("iterable", iterable.toNode.toValue),
        ("body", (Node.block (Statement.toValues body)).toValue)]⟩
  | .breakLoop => ⟨.breakLoop, .atom .null⟩
  | .continueLoop => ⟨.continueLoop, .atom .null⟩
  | .returnValue none => ⟨.returnValue, .atom .null⟩
  | .returnValue (some value) => ⟨.returnValue, value.toNode.toValue⟩
  | .expression value => ⟨.expression, value.toNode.toValue⟩
  | .struct name fields =>
    ⟨.struct,
      .named [("name", .text name),
        ("fields", .list (fields.map fun field => field.toNode.toValue))]⟩
  | .impl name methods =>
    ⟨.impl, .named [("name", .text name), ("methods", .list (Function.toValues methods))]⟩
  | .function function => function.toNode .function
  | .error complaint => complaint.toNode

/-- Statements as values. -/
def Statement.toValues : List Statement → List Value
  | [] => []
  | statement :: rest => statement.toNode.toValue :: Statement.toValues rest

/-- The block for when no branch is taken as a value. -/
def Statement.otherwiseToValue : Option (List Statement) → Value
  | some body => (Node.block (Statement.toValues body)).toValue
  | none => .atom .null

/-- The branches behind the first as a value: each is a conditional inside the one before. -/
def Branch.toValue : List Branch → Value → Value
  | [], otherwise => otherwise
  | .mk condition body :: rest, otherwise =>
    (Node.conditional condition.toNode (.block (Statement.toValues body))
      (Branch.toValue rest otherwise)).toValue

/-- A function or method as a node with the given tag. -/
def Function.toNode : Function → Tag → Node
  | .mk name parameters returnType body, tag =>
    ⟨tag,
      .named [("name", .text name),
        ("parameters", .list (parameters.map fun parameter => parameter.toNode.toValue)),
        ("return_type", TypeExpr.optionToValue returnType),
        ("body", (Node.block (Statement.toValues body)).toValue)]⟩

/-- Methods as values. -/
def Function.toValues : List Function → List Value
  | [] => []
  | function :: rest => (function.toNode .method).toValue :: Function.toValues rest

end

/-- A block as a node. -/
def Statement.blockToNode (statements : List Statement) : Node :=
  .block (Statement.toValues statements)

end BraceLang
