import BraceLang.Data.Datum

/-!
# Labelled trees

The tree view of a program: nodes with a tag from a closed list and a value, which is an atom, a
node, a list of values or a record of values.
-/

namespace BraceLang.Tree

/-- The tags of nodes. -/
inductive Tag where
  | block
  | number
  | string
  | boolean
  | identifier
  | array
  | structLiteral
  | generic
  | binary
  | unary
  | scope
  | call
  | functionValue
  | type
  | parameter
  | variable
  | conditional
  | whileLoop
  | forLoop
  | breakLoop
  | continueLoop
  | returnValue
  | expression
  | struct
  | structField
  | impl
  | method
  | function
  | error
  deriving DecidableEq, Repr

namespace Tag

/-- The name of a tag. -/
def name : Tag → String
  | .block => "block statement"
  | .number => "number literal"
  | .string => "string literal"
  | .boolean => "boolean literal"
  | .identifier => "identifier"
  | .array => "array literal"
  | .structLiteral => "struct initialization"
  | .generic => "generic type"
  | .binary => "binary operation"
  | .unary => "unary operation"
  | .scope => "namespace access"
  | .call => "function call"
  | .functionValue => "function expression"
  | .type => "type"
  | .parameter => "parameter"
  | .variable => "variable declaration"
  | .conditional => "if statement"
  | .whileLoop => "while statement"
  | .forLoop => "for statement"
  | .breakLoop => "break statement"
  | .continueLoop => "continue statement"
  | .returnValue => "return statement"
  | .expression => "expression statement"
  | .struct => "struct_declaration"
  | .structField => "struct_field"
  | .impl => "impl_declaration"
  | .method => "method_declaration"
  | .function => "function_declaration"
  | .error => "error"

/-- All tags. -/
def all : List Tag :=
  [.block, .number, .string, .boolean, .identifier, .array, .structLiteral, .generic, .binary,
   .unary, .scope, .call, .functionValue, .type, .parameter, .variable, .conditional, .whileLoop,
   .forLoop, .breakLoop, .continueLoop, .returnValue, .expression, .struct, .structField, .impl,
   .method, .function, .error]

/-- The tag of a name. -/
def ofName? (name : String) : Option Tag := all.find? (·.name == name)

/-- A tag is found by its name. -/
theorem ofName?_name (tag : Tag) : ofName? tag.name = some tag := by
  cases tag <;> decide

/-- Tags have different names. -/
theorem name_inj {tag other : Tag} : tag.name = other.name ↔ tag = other := by
  refine ⟨fun hname => ?_, congrArg name⟩
  have hfound := ofName?_name tag
  rw [hname, ofName?_name] at hfound
  exact (Option.some.inj hfound).symm

end Tag

/-- What a node holds. -/
inductive Value where
  | atom (value : Atom)
  | node (tag : Tag) (value : Value)
  | list (items : List Value)
  | record (fields : List (Atom × Value))
  deriving Repr, Inhabited

/-- A tag with a value. -/
structure Node where
  tag : Tag
  value : Value
  deriving Repr

/-- A node as a value. -/
def Node.toValue (node : Node) : Value := .node node.tag node.value

namespace Value

/-- A record with named fields. -/
def named (fields : List (String × Value)) : Value :=
  .record (fields.map fun (name, value) => (.text name, value))

/-- The value of a text. -/
def text (value : String) : Value := .atom (.text value)

mutual

/-- The nodes of a value that lie in no other node of it, in order. -/
def children : Value → List Node
  | .atom _ => []
  | .node tag value => [⟨tag, value⟩]
  | .list items => childrenOfItems items
  | .record fields => childrenOfFields fields

/-- The outermost nodes of a list of values. -/
def childrenOfItems : List Value → List Node
  | [] => []
  | item :: rest => children item ++ childrenOfItems rest

/-- The outermost nodes of a record. -/
def childrenOfFields : List (Atom × Value) → List Node
  | [] => []
  | (_, value) :: rest => children value ++ childrenOfFields rest

end

mutual

/-- All nodes of a value, each before the nodes that it holds. -/
def nodes : Value → List Node
  | .atom _ => []
  | .node tag value => ⟨tag, value⟩ :: nodes value
  | .list items => nodesOfItems items
  | .record fields => nodesOfFields fields

/-- All nodes of a list of values. -/
def nodesOfItems : List Value → List Node
  | [] => []
  | item :: rest => nodes item ++ nodesOfItems rest

/-- All nodes of a record. -/
def nodesOfFields : List (Atom × Value) → List Node
  | [] => []
  | (_, value) :: rest => nodes value ++ nodesOfFields rest

end

mutual

/-- A value as plain data: each node becomes a record of its type and its value. -/
def toDatum : Value → Datum
  | .atom value => .atom value
  | .node tag value =>
    .record [(.text "type", .text tag.name), (.text "value", toDatum value)]
  | .list items => .list (itemsToData items)
  | .record fields => .record (fieldsToData fields)

/-- The items of a list as plain data. -/
def itemsToData : List Value → List Datum
  | [] => []
  | item :: rest => toDatum item :: itemsToData rest

/-- The fields of a record as plain data. -/
def fieldsToData : List (Atom × Value) → List (Atom × Datum)
  | [] => []
  | (key, value) :: rest => (key, toDatum value) :: fieldsToData rest

end

end Value

namespace Node

/-- The nodes directly below a node. -/
def children (node : Node) : List Node := node.value.children

/-- A node and all nodes below it, each before the nodes that it holds. -/
def walk (node : Node) : List Node := node :: node.value.nodes

/-- A node as plain data. -/
def toDatum (node : Node) : Datum := node.toValue.toDatum

/-- Whether a node stands for something that could not be parsed. -/
def isError (node : Node) : Bool := node.tag == .error

end Node

end BraceLang.Tree
