import BraceLang.Proofs.Construction.Statements
import BraceLang.Proofs.Parsing.Completion

/-!
# The schema of program trees

The values of nodes have no types. What the node of a tag holds is said by the shape of the tag: a
check that can be run. Every node of a tree that is parsed has the shape of its tag, also where
parts of the program could not be parsed.
-/

namespace BraceLang

open BraceLang.Tree (Node Value Tag)

namespace Tree

/-- A check of what a node holds. -/
abbrev Shape := Value → Bool

namespace Shape

/-- A text that passes a test. -/
def text (test : String → Bool) : Shape
  | .atom (.text value) => test value
  | _ => false

/-- Any text. -/
def anyText : Shape := text fun _ => true

/-- Nothing. -/
def nothing : Shape
  | .atom .null => true
  | _ => false

/-- A number. -/
def number : Shape
  | .atom (.integer _) | .atom (.real _) => true
  | _ => false

/-- A truth value. -/
def truth : Shape
  | .atom (.boolean _) => true
  | _ => false

/-- A node with one of some tags. -/
def node (tags : List Tag) : Shape
  | .node tag _ => tags.contains tag
  | _ => false

/-- A node with a tag and a shape of what it holds. -/
def nodeOf (tag : Tag) (content : Shape) : Shape
  | .node found value => found == tag && content value
  | _ => false

/-- Either of two shapes. -/
def either (first second : Shape) : Shape := fun value => first value || second value

/-- A shape of what may be missing. -/
def optional (shape : Shape) : Shape := either nothing shape

/-- A list of values of one shape. -/
def list (item : Shape) : Shape
  | .list items => items.all item
  | _ => false

/-- An empty list. -/
def emptyList : Shape
  | .list [] => true
  | _ => false

/-- A list of at least one value. -/
def nonemptyList (item : Shape) : Shape
  | .list (first :: rest) => item first && rest.all item
  | _ => false

/-- Fields with certain names in their order. -/
def fields : List (String × Shape) → List (Atom × Value) → Bool
  | [], [] => true
  | (name, shape) :: rest, (key, value) :: given =>
    key == .text name && shape value && fields rest given
  | _, _ => false

/-- A record of fields with certain names in their order. -/
def record (expected : List (String × Shape)) : Shape
  | .record given => fields expected given
  | _ => false

/-- A record of any fields with distinct texts as names and values of one shape. -/
def distinctFields (item : Shape) : Shape
  | .record given =>
    decide (given.map Prod.fst).Nodup && given.all fun (key, value) =>
      anyText (.atom key) && item value
  | _ => false

/-- A type. -/
def type : Shape := node [.type]

/-- A block. -/
def block : Shape := node [.block]

/-- An expression, or an error in its place. -/
def expression : Shape :=
  node [.number, .string, .boolean, .identifier, .array, .structLiteral, .generic, .binary, .unary,
    .scope, .call, .functionValue, .error]

/-- A statement, or an error in its place. -/
def statement : Shape :=
  node [.variable, .conditional, .whileLoop, .forLoop, .breakLoop, .continueLoop, .returnValue,
    .expression, .struct, .impl, .function, .error]

/-- The word that declares a binding. -/
def bindingWord : Shape := text fun word => ["let", "const"].contains word

/-- The mark of a binary operator. -/
def binaryMark : Shape :=
  text fun mark =>
    ["=", "||", "&&", "==", "!=", "<", "<=", ">", ">=", "+", "-", "*", "/"].contains mark

/-- The mark of a unary operator. -/
def unaryMark : Shape := text fun mark => ["-", "!"].contains mark

/-- The name of a generic type. -/
def genericName : Shape := text fun name => name.toList.head?.any Unicode.isUppercase

/-- What a call holds, given the shape of its callee. -/
def call (callee : Shape) : Shape := record [("callee", callee), ("arguments", list expression)]

/-- What is accessed in a scope: an identifier, or the call of one. -/
def member : Shape := either (node [.identifier]) (nodeOf .call (call (node [.identifier])))

/-- What a function or method holds that may have to state its return type. -/
def callable (stated : Bool) : Shape :=
  record [("name", anyText), ("parameters", list (node [.parameter])),
    ("return_type", if stated then type else optional type), ("body", block)]

/-- The shape of what a node of a tag holds. -/
def ofTag (options : Options) : Tag → Shape
  | .block => list statement
  | .number => number
  | .string => anyText
  | .boolean => truth
  | .identifier => anyText
  | .array => list expression
  | .structLiteral => record [("name", anyText), ("fields", distinctFields expression)]
  | .generic => record [("name", genericName), ("arguments", nonemptyList type)]
  | .binary => record [("left", expression), ("operator", binaryMark), ("right", expression)]
  | .unary => record [("operator", unaryMark), ("operand", expression)]
  | .scope => record [("namespace", expression), ("member", member)]
  | .call => call (node [.identifier, .generic])
  | .functionValue => record [("parameters", emptyList), ("return_type", type), ("body", block)]
  | .type => record [("name", anyText), ("arguments", list type)]
  | .parameter => record [("name", anyText), ("type", optional type)]
  | .variable =>
    record [("kind", bindingWord), ("name", anyText), ("type", optional type),
      ("value", expression)]
  | .conditional =>
    record [("condition", expression), ("then", block),
      ("else", optional (node [.conditional, .block]))]
  | .whileLoop => record [("condition", expression), ("body", block)]
  | .forLoop =>
    record [("kind", bindingWord), ("variable", anyText), ("iterable", expression),
      ("body", block)]
  | .breakLoop => nothing
  | .continueLoop => nothing
  | .returnValue => optional expression
  | .expression => expression
  | .struct => record [("name", anyText), ("fields", list (node [.structField]))]
  | .structField => record [("name", anyText), ("type", type)]
  | .impl => record [("name", anyText), ("methods", list (node [.method]))]
  | .method => callable options.methodsStateReturn
  | .function => callable options.functionsStateReturn
  | .error => anyText

end Shape

/-- What a node holds has the shape of its tag. -/
def Node.fits (options : Options) (node : Node) : Bool := Shape.ofTag options node.tag node.value

/-- Every node of a value has the shape of its tag. -/
def Value.Fits (options : Options) (value : Value) : Prop :=
  ∀ node ∈ value.nodes, node.fits options = true

namespace Value.Fits

variable {options : Options}

/-- Atoms hold no nodes, so they fit. -/
@[simp] theorem atom (value : Atom) : Fits options (.atom value) :=
  fun _ hnode => absurd hnode List.not_mem_nil

/-- So do texts. -/
@[simp] theorem text (value : String) : Fits options (.text value) := atom _

/-- A node with all nodes that it holds. -/
@[simp] theorem toValue_iff (tag : Tag) (value : Value) :
    Fits options (Node.toValue ⟨tag, value⟩) ↔
      Shape.ofTag options tag value = true ∧ Fits options value :=
  List.forall_mem_cons

/-- So do empty lists. -/
@[simp] theorem nil : Fits options (.list []) := fun _ hnode => absurd hnode List.not_mem_nil

/-- A list fits if its values do. -/
@[simp] theorem cons_iff (first : Value) (rest : List Value) :
    Fits options (.list (first :: rest)) ↔ Fits options first ∧ Fits options (.list rest) :=
  List.forall_mem_append

/-- Empty records fit. -/
@[simp] theorem record_nil : Fits options (.record []) :=
  fun _ hnode => absurd hnode List.not_mem_nil

/-- A record fits if its values do. -/
@[simp] theorem record_cons_iff (key : Atom) (first : Value) (rest : List (Atom × Value)) :
    Fits options (.record ((key, first) :: rest)) ↔
      Fits options first ∧ Fits options (.record rest) :=
  List.forall_mem_append

/-- The same for records whose keys are names: empty ones fit. -/
@[simp] theorem named_nil : Fits options (.named []) := record_nil

/-- One with fields fits if their values do. -/
@[simp] theorem named_cons_iff (name : String) (first : Value) (rest : List (String × Value)) :
    Fits options (.named ((name, first) :: rest)) ↔
      Fits options first ∧ Fits options (.named rest) :=
  record_cons_iff _ _ _

/-- A list of views of other things. -/
@[simp] theorem map {α : Type} {view : α → Value} (hview : ∀ item, Fits options (view item))
    (items : List α) : Fits options (.list (items.map view)) := by
  induction items with
  | nil => exact nil
  | cons first rest ih => exact (cons_iff _ _).mpr ⟨hview first, ih⟩

end Value.Fits

end Tree

section Shapes

open BraceLang.Tree (Shape)
open BraceLang.Tree.Shape

/-- A record with the expected fields has the shape if the values of the fields have theirs. -/
@[simp] theorem Tree.Shape.record_named_nil : record [] (.named []) = true := rfl

/-- A record is compared with its shape field by field. -/
@[simp] theorem Tree.Shape.record_named_cons (name : String) (shape : Shape) (value : Value)
    (rest : List (String × Shape)) (given : List (String × Value)) :
    record ((name, shape) :: rest) (.named ((name, value) :: given)) =
      (shape value && record rest (.named given)) := by
  simp [record, fields, Tree.Value.named]

/-- What may be missing and is there. -/
theorem Tree.Shape.optional_of {shape : Shape} {value : Value} (hshape : shape value = true) :
    optional shape value = true := by
  simp [optional, either, hshape]

/-- What may be left out may be null. -/
@[simp] theorem Tree.Shape.optional_null (shape : Shape) :
    optional shape (.atom .null) = true := rfl

/-- Any text is a text. -/
@[simp] theorem Tree.Shape.anyText_text (value : String) : anyText (.text value) = true := rfl

/-- Null is nothing. -/
@[simp] theorem Tree.Shape.nothing_null : nothing (.atom .null) = true := rfl

/-- An empty list is an empty list. -/
@[simp] theorem Tree.Shape.emptyList_nil : emptyList (.list []) = true := rfl

/-- A block is one, whatever its items are. -/
@[simp] theorem Tree.Shape.block_toValue (items : List Value) :
    block (Node.block items).toValue = true := rfl

/-- The word of a binding is one of the two. -/
@[simp] theorem Tree.Shape.bindingWord_word (binding : Binding) :
    bindingWord (.text binding.word) = true := by
  cases binding <;> rfl

/-- The mark of a binary operator is one of its marks. -/
@[simp] theorem Tree.Shape.binaryMark_spelling (operator : BinaryOperator) :
    binaryMark (.text operator.spelling) = true := by
  cases operator <;> rfl

/-- So is that of a unary operator. -/
@[simp] theorem Tree.Shape.unaryMark_spelling (operator : UnaryOperator) :
    unaryMark (.text operator.spelling) = true := by
  cases operator <;> rfl

/-- A number is a whole one or a real one. -/
@[simp] theorem Tree.Shape.number_atom (value : Number) : number (.atom value.toAtom) = true := by
  cases value <;> rfl

/-- A truth value is one. -/
@[simp] theorem Tree.Shape.truth_atom (value : Bool) : truth (.atom (.boolean value)) = true := rfl

/-- A list of views that have one shape. -/
theorem Tree.Shape.list_map {α : Type} {item : Shape} {view : α → Value}
    (hview : ∀ value, item (view value) = true) (values : List α) :
    list item (.list (values.map view)) = true := by
  simp [list, hview]

/-- Parameters are a list of parameters. -/
@[simp] theorem Tree.Shape.list_parameters (parameters : List Parameter) :
    list (node [.parameter]) (.list (parameters.map fun parameter => parameter.toNode.toValue)) =
      true :=
  list_map (fun _ => rfl) parameters

/-- The fields of a struct are a list of fields. -/
@[simp] theorem Tree.Shape.list_structFields (fields : List StructField) :
    list (node [.structField]) (.list (fields.map fun field => field.toNode.toValue)) = true :=
  list_map (fun _ => rfl) fields

/-- Methods are a list of methods. -/
@[simp] theorem Tree.Shape.list_methods (methods : List Function) :
    list (node [.method]) (.list (Function.toValues methods)) = true := by
  induction methods with
  | nil => rfl
  | cons first rest ih =>
    have hfirst : node [.method] (first.toNode .method).toValue = true := by
      cases first
      rfl
    simpa [Function.toValues, list, hfirst] using ih

/-- A type is one. -/
@[simp] theorem Tree.Shape.type_toNode (type : TypeExpr) :
    Shape.type type.toNode.toValue = true := by
  cases type
  rfl

/-- Types are a list of types. -/
@[simp] theorem Tree.Shape.type_toValues (types : List TypeExpr) :
    list Shape.type (.list (TypeExpr.toValues types)) = true := by
  induction types with
  | nil => rfl
  | cons first rest ih => simpa [TypeExpr.toValues, list] using ih

/-- A type may be left out. -/
@[simp] theorem Tree.Shape.optional_type (type : Option TypeExpr) :
    optional Shape.type (TypeExpr.optionToValue type) = true := by
  cases type with
  | none => rfl
  | some type => exact optional_of (type_toNode type)

/-- A return type that has to be stated is not left out. -/
theorem Tree.Shape.returnType_optionToValue {stated : Bool} {returnType : Option TypeExpr}
    (hstated : stated = true → returnType ≠ none) :
    (if stated then Shape.type else optional Shape.type) (TypeExpr.optionToValue returnType) =
      true := by
  split
  · next htrue =>
    cases returnType with
    | none => exact absurd rfl (hstated htrue)
    | some type => exact type_toNode type
  · exact optional_type returnType

/-- A name is an identifier or a generic type. -/
@[simp] theorem Tree.Shape.node_name (name : Name) :
    node [.identifier, .generic] name.toNode.toValue = true := by
  unfold Name.toNode
  split <;> rfl

/-- Every expression is a node that may stand in the place of one. -/
@[simp] theorem Tree.Shape.expression_toNode (value : Expression) :
    Shape.expression value.toNode.toValue = true := by
  cases value with
  | name name =>
    unfold Expression.toNode Name.toNode
    split <;> rfl
  | _ => rfl

/-- Expressions are a list of expressions. -/
@[simp] theorem Tree.Shape.expression_toValues (items : List Expression) :
    list Shape.expression (.list (Expression.toValues items)) = true := by
  induction items with
  | nil => rfl
  | cons first rest ih => simpa [Expression.toValues, list] using ih

/-- A call of an identifier may be accessed in a scope. -/
theorem Tree.Shape.member_call (name : String) (arguments : List Expression) :
    member (Node.call ⟨.identifier, .text name⟩ (Expression.toValues arguments)).toValue =
      true := by
  have hcall : nodeOf .call (call (node [.identifier]))
      (Node.call ⟨.identifier, .text name⟩ (Expression.toValues arguments)).toValue = true := by
    simp only [Node.call, Node.toValue, nodeOf, call, record_named_cons, record_named_nil,
      expression_toValues]
    rfl
  rw [member, either, hcall, Bool.or_true]

/-- The fields of a struct literal are named once. -/
theorem Tree.Shape.distinctFields_toValues {fields : List (String × Expression)}
    (hnames : (fields.map Prod.fst).Nodup) :
    distinctFields Shape.expression (.record (Expression.fieldsToValues fields)) = true := by
  have hfields : Expression.fieldsToValues fields =
      fields.map fun field => (.text field.1, field.2.toNode.toValue) := by
    induction fields with
    | nil => rfl
    | cons first rest ih => rw [Expression.fieldsToValues, ih (List.nodup_cons.mp hnames).2]; rfl
  have hkeys : (fields.map fun field => Atom.text field.1).Nodup := by
    have hinjective : Function.Injective Atom.text := fun _ _ htext => Atom.text.inj htext
    simpa [Function.comp_def] using hnames.map hinjective
  simp [distinctFields, hfields, Function.comp_def, hkeys, anyText, Tree.Shape.text]

/-- Every statement is a node that may stand in the place of one. -/
@[simp] theorem Tree.Shape.statement_toNode (statement : Statement) :
    Shape.statement statement.toNode.toValue = true := by
  cases statement with
  | returnValue value => cases value <;> rfl
  | conditional first => cases first; rfl
  | function function => cases function; rfl
  | _ => rfl

/-- Statements are a list of statements. -/
@[simp] theorem Tree.Shape.statement_toValues (items : List Statement) :
    list Shape.statement (.list (Statement.toValues items)) = true := by
  induction items with
  | nil => rfl
  | cons first rest ih => simpa [Statement.toValues, list] using ih

end Shapes

mutual

/-- Every node of a type fits. -/
theorem TypeExpr.fits (options : Options) : (type : TypeExpr) → type.toNode.toValue.Fits options
  | .mk name arguments => by
    simp [TypeExpr.toNode, Tree.Shape.ofTag, TypeExpr.fits_toValues options arguments]

/-- Every node of a row of types fits. -/
theorem TypeExpr.fits_toValues (options : Options) :
    (types : List TypeExpr) → Tree.Value.Fits options (.list (TypeExpr.toValues types))
  | [] => .nil
  | first :: rest => by
    simp [TypeExpr.toValues, TypeExpr.fits options first, TypeExpr.fits_toValues options rest]

end

section Parts

variable {options : Options}

/-- Every node of a type that may be left out fits. -/
@[simp] theorem TypeExpr.fits_optionToValue (type : Option TypeExpr) :
    (TypeExpr.optionToValue type).Fits options := by
  cases type with
  | none => exact .atom _
  | some type => exact type.fits options

/-- Every node of a name fits, since only a name that may have type arguments has any. -/
theorem Name.Built.fits {levels : Nat} {name : Name} (hname : name.Built levels) :
    name.toNode.toValue.Fits options := by
  obtain ⟨text, arguments⟩ := name
  cases arguments with
  | nil => simp [Name.toNode, Tree.Shape.ofTag]
  | cons first rest =>
    have hgeneric : Tree.Shape.genericName (.text text) = true :=
      hname.generic (List.cons_ne_nil first rest)
    have harguments : Tree.Shape.nonemptyList Tree.Shape.type
        (.list (TypeExpr.toValues (first :: rest))) = true := by
      simpa [Tree.Shape.nonemptyList, TypeExpr.toValues, Tree.Shape.list] using
        Tree.Shape.type_toValues rest
    simp [Name.toNode, Tree.Shape.ofTag, hgeneric, harguments, TypeExpr.fits_toValues]

/-- An identifier fits. -/
theorem Tree.Node.identifier_fits (text : String) :
    (Node.toValue ⟨.identifier, .text text⟩).Fits options := by
  simp [Tree.Shape.ofTag]

/-- Every node of a parameter fits. -/
@[simp] theorem Parameter.fits (parameter : Parameter) : parameter.toNode.toValue.Fits options := by
  simp [Parameter.toNode, Tree.Shape.ofTag]

/-- Every node of a field fits. -/
@[simp] theorem StructField.fits (field : StructField) : field.toNode.toValue.Fits options := by
  simp [StructField.toNode, Tree.Shape.ofTag, TypeExpr.fits]

/-- Every node of a block fits if those of its statements do. -/
theorem Tree.Node.block_fits {items : List Statement}
    (hitems : Tree.Value.Fits options (.list (Statement.toValues items))) :
    (Node.block (Statement.toValues items)).toValue.Fits options := by
  simp [Node.block, Tree.Shape.ofTag, hitems]

/-- Every node of a call fits if those of its parts do and it calls a name. -/
theorem Tree.Node.call_fits {callee : Node} {arguments : List Expression}
    (hcallee : callee.toValue.Fits options)
    (harguments : Tree.Value.Fits options (.list (Expression.toValues arguments)))
    (hname : Tree.Shape.node [.identifier, .generic] callee.toValue = true) :
    (Node.call callee (Expression.toValues arguments)).toValue.Fits options := by
  simp [Node.call, Tree.Shape.ofTag, Tree.Shape.call, hcallee, harguments, hname]

/-- Every node of an access to a scope fits if those of its parts do and it accesses a member. -/
theorem Tree.Node.scope_fits {scope : Expression} {member : Node}
    (hscope : scope.toNode.toValue.Fits options) (hmember : member.toValue.Fits options)
    (hshape : Tree.Shape.member member.toValue = true) :
    (Node.scope scope.toNode member).toValue.Fits options := by
  simp [Node.scope, Tree.Shape.ofTag, hscope, hmember, hshape]

/-- Every node of a conditional fits if those of its parts do. -/
theorem Tree.Node.conditional_fits {condition : Expression} {body : List Statement}
    {otherwise : Value} (hcondition : condition.toNode.toValue.Fits options)
    (hbody : Tree.Value.Fits options (.list (Statement.toValues body)))
    (hotherwise : otherwise.Fits options)
    (hshape : Tree.Shape.optional (Tree.Shape.node [.conditional, .block]) otherwise = true) :
    (Node.conditional condition.toNode (.block (Statement.toValues body)) otherwise).toValue.Fits
      options := by
  simp [Node.conditional, Tree.Shape.ofTag, hcondition, block_fits hbody, hotherwise, hshape]

end Parts

mutual

/-- Every node of an expression that is built fits. -/
theorem Expression.Built.fits {options : Options} {levels : Nat} {expression : Expression}
    {reports : List Report} : Expression.Built options levels expression reports →
    expression.toNode.toValue.Fits options
  | .number _ => by simp [Expression.toNode, Tree.Shape.ofTag]
  | .string _ => by simp [Expression.toNode, Tree.Shape.ofTag]
  | .boolean _ => by simp [Expression.toNode, Tree.Shape.ofTag]
  | .name hname => hname.fits
  | .group hvalue => hvalue.fits
  | .array hitems => by simp [Expression.toNode, Tree.Shape.ofTag, hitems.fits]
  | .structLiteral hnames hfields => by
    simp [Expression.toNode, Tree.Shape.ofTag, hfields.fits,
      Tree.Shape.distinctFields_toValues hnames]
  | .binary hleft hright => by
    simp [Expression.toNode, Tree.Shape.ofTag, hleft.fits, hright.fits]
  | .unary hoperand => by
    simp [Expression.toNode, Tree.Shape.ofTag, hoperand.fits]
  | .member hscope => Tree.Node.scope_fits hscope.fits (Tree.Node.identifier_fits _) rfl
  | .memberCall hscope harguments =>
    Tree.Node.scope_fits hscope.fits
      (Tree.Node.call_fits (Tree.Node.identifier_fits _) harguments.fits rfl)
      (Tree.Shape.member_call _ _)
  | .call hname harguments =>
    Tree.Node.call_fits hname.fits harguments.fits (Tree.Shape.node_name _)
  | .function _ hbody => by
    simp [Expression.toNode, Tree.Shape.ofTag, TypeExpr.fits, Tree.Node.block_fits hbody.fits]
  | .error report => by simp [Expression.toNode, Complaint.toNode, Tree.Shape.ofTag]

/-- Every node of a row of expressions fits. -/
theorem Expression.AllBuilt.fits {options : Options} {levels : Nat} {items : List Expression}
    {reports : List Report} : Expression.AllBuilt options levels items reports →
    Tree.Value.Fits options (.list (Expression.toValues items))
  | .nil => .nil
  | .cons hfirst hrest => by simp [Expression.toValues, hfirst.fits, hrest.fits]

/-- Every node of the values of fields fits. -/
theorem Expression.FieldsBuilt.fits {options : Options} {levels : Nat}
    {fields : List (String × Expression)} {reports : List Report} :
    Expression.FieldsBuilt options levels fields reports →
    Tree.Value.Fits options (.record (Expression.fieldsToValues fields))
  | .nil => .record_nil
  | .cons hfirst hrest => by simp [Expression.fieldsToValues, hfirst.fits, hrest.fits]

/-- Every node of a statement that is built fits. -/
theorem Statement.Built.fits {options : Options} {levels : Nat} {statement : Statement}
    {reports : List Report} : Statement.Built options levels statement reports →
    statement.toNode.toValue.Fits options
  | .declaration _ hvalue => by
    simp [Statement.toNode, Tree.Shape.ofTag, hvalue.fits]
  | .conditional (.mk hcondition hbody) hothers hotherwise => by
    obtain ⟨hfits, hshape⟩ := hothers.fits hotherwise.fits
    exact Tree.Node.conditional_fits hcondition.fits hbody.fits hfits hshape
  | .whileLoop hcondition hbody => by
    simp [Statement.toNode, Tree.Shape.ofTag, hcondition.fits, Tree.Node.block_fits hbody.fits]
  | .forLoop hiterable hbody => by
    simp [Statement.toNode, Tree.Shape.ofTag, hiterable.fits, Tree.Node.block_fits hbody.fits]
  | .breakLoop | .continueLoop | .returnNothing => by
    simp [Statement.toNode, Tree.Shape.ofTag]
  | .returnValue hvalue => by
    simp [Statement.toNode, Tree.Shape.ofTag, hvalue.fits, Tree.Shape.optional_of]
  | .expression hvalue => by
    simp [Statement.toNode, Tree.Shape.ofTag, hvalue.fits]
  | .struct _ => by
    simp [Statement.toNode, Tree.Shape.ofTag]
  | .impl hmethods => by
    simp [Statement.toNode, Tree.Shape.ofTag, hmethods.fits]
  | .function hfunction => hfunction.fits rfl
  | .error earlier report => by simp [Statement.toNode, Complaint.toNode, Tree.Shape.ofTag]

/-- Every node of a row of statements fits. -/
theorem Statement.AllBuilt.fits {options : Options} {levels : Nat} {items : List Statement}
    {reports : List Report} : Statement.AllBuilt options levels items reports →
    Tree.Value.Fits options (.list (Statement.toValues items))
  | .nil => .nil
  | .cons hfirst hrest => by simp [Statement.toValues, hfirst.fits, hrest.fits]

/-- Every node of the block for when no branch is taken fits, and it is a block if it is there. -/
theorem Statement.OtherwiseBuilt.fits {options : Options} {levels : Nat}
    {otherwise : Option (List Statement)} {reports : List Report} :
    Statement.OtherwiseBuilt options levels otherwise reports →
    (Statement.otherwiseToValue otherwise).Fits options ∧ Tree.Shape.optional
      (Tree.Shape.node [.conditional, .block]) (Statement.otherwiseToValue otherwise) = true
  | .none => ⟨.atom _, rfl⟩
  | .some hbody => ⟨Tree.Node.block_fits hbody.fits, rfl⟩

/-- Every node of branches with what stands behind them fits. -/
theorem Branch.AllBuilt.fits {options : Options} {levels : Nat} {branches : List Branch}
    {reports : List Report} {otherwise : Value} :
    Branch.AllBuilt options levels branches reports →
    otherwise.Fits options ∧ Tree.Shape.optional
      (Tree.Shape.node [.conditional, .block]) otherwise = true →
    (Branch.toValue branches otherwise).Fits options ∧ Tree.Shape.optional
      (Tree.Shape.node [.conditional, .block]) (Branch.toValue branches otherwise) = true
  | .nil, hotherwise => hotherwise
  | .cons (.mk hcondition hbody) hrest, hotherwise => by
    obtain ⟨hfits, hshape⟩ := hrest.fits hotherwise
    exact ⟨Tree.Node.conditional_fits hcondition.fits hbody.fits hfits hshape, rfl⟩

/-- Every node of a function fits, as a function or as a method. -/
theorem Function.Built.fits {options : Options} {levels : Nat} {stated : Bool}
    {function : Function} {reports : List Report} {tag : Tag} :
    Function.Built options levels stated function reports →
    Tree.Shape.ofTag options tag = Tree.Shape.callable stated →
    (function.toNode tag).toValue.Fits options
  | .mk _ _ hstated hbody, htag => by
    have hreturn := Tree.Shape.returnType_optionToValue hstated
    simp [Function.toNode, htag, Tree.Shape.callable, Tree.Node.block_fits hbody.fits, hreturn]

/-- Every node of a row of methods fits. -/
theorem Function.AllBuilt.fits {options : Options} {levels : Nat} {methods : List Function}
    {reports : List Report} : Function.AllBuilt options levels methods reports →
    Tree.Value.Fits options (.list (Function.toValues methods))
  | .nil => .nil
  | .cons hfirst hrest => by
    have hmethod := hfirst.fits (show Tree.Shape.ofTag options .method = _ from rfl)
    simp [Function.toValues, hmethod, hrest.fits]

end

/-- The tree of whatever is parsed is a block, and every node that a walk through it comes to holds
what the schema says for its tag. -/
theorem parseTokens_walk_fits {tokens : List Token} {source : Option String} {options : Options}
    {program : List Statement} {diagnostics : List Diagnostic}
    (hparsed : parseTokens tokens source options = .ok (program, diagnostics)) :
    (Statement.blockToNode program).tag = .block ∧
      ∀ node ∈ (Statement.blockToNode program).walk, node.fits options = true := by
  refine ⟨rfl, ?_⟩
  obtain ⟨reports, hreply, -⟩ := parseTokens_eq_ok hparsed
  have hbuilt := program_yields_built options (Input.ofTokens tokens).lexemes
  rw [hreply] at hbuilt
  exact Tree.Node.block_fits hbuilt.fits

/-- In a condition without an operand and a block with a stray bracket the errors stand where an
expression and a statement fit. -/
theorem parseTokens_walk_fits_stray :
    let tokens := [⟨.keyword, "if"⟩, ⟨.operator, "+"⟩, ⟨.symbol, "\x7b"⟩, ⟨.symbol, ")"⟩,
      ⟨.symbol, ";"⟩, ⟨.symbol, "\x7d"⟩].map fun lexeme => Token.mk lexeme (.start "main")
    ∃ program diagnostics, parseTokens tokens none {} = .ok (program, diagnostics) ∧
      diagnostics.length = 2 ∧
      ∀ node ∈ (Statement.blockToNode program).walk, node.fits {} = true := by
  intro tokens
  have hreply : Parser.program {}
      [⟨.keyword, "if"⟩, ⟨.operator, "+"⟩, ⟨.symbol, "\x7b"⟩, ⟨.symbol, ")"⟩, ⟨.symbol, ";"⟩,
        ⟨.symbol, "\x7d"⟩] =
      .done
        [.conditional
          (.mk (.error (.unexpected (some ⟨.operator, "+"⟩) .expression))
            [.expression (.error (.unexpected (some ⟨.symbol, ")"⟩) .expression))]) [] none] []
        [⟨5, .unexpected (some ⟨.operator, "+"⟩) .expression⟩,
          ⟨3, .unexpected (some ⟨.symbol, ")"⟩) .expression⟩] := rfl
  have hparsed : parseTokens tokens none {} = _ := parseTokens_of_done none hreply
  exact ⟨_, _, hparsed, Input.reportTo_reported _ _ none, (parseTokens_walk_fits hparsed).2⟩

end BraceLang
