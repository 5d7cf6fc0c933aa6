import BraceLang.Proofs.Construction.Schema
import BraceLang.Proofs.Strictness.Transfer

/-!
# Expressions under other options

The parsers of a layer transfer to those of a layer under other options on the trees that fit the
schema of these. Every node of a part is a node of the whole, so the parts of a tree that fits fit
as well. Types have no options at all: their parsers are the same in every layer.
-/

namespace BraceLang

open BraceLang.Parser BraceLang.Tree

/-- An expression of which every node fits the schema. -/
def Expression.Fits (options : Options) (expression : Expression) : Prop :=
  expression.toNode.toValue.Fits options

/-- A statement of which every node fits the schema. -/
def Statement.Fits (options : Options) (statement : Statement) : Prop :=
  statement.toNode.toValue.Fits options

section Parts

variable {options : Options}

/-- A row of expressions fits if each of them does. -/
theorem Expression.fits_toValues_iff (items : List Expression) :
    Value.Fits options (.list (Expression.toValues items)) ↔ ∀ item ∈ items, item.Fits options := by
  induction items with
  | nil => simp [Expression.toValues]
  | cons first rest ih => simp [Expression.toValues, ih, Expression.Fits]

/-- A row of fields fits if the value of each of them does. -/
theorem Expression.fits_fieldsToValues_iff (fields : List (String × Expression)) :
    Value.Fits options (.record (Expression.fieldsToValues fields)) ↔
      ∀ field ∈ fields, field.2.Fits options := by
  induction fields with
  | nil => simp [Expression.fieldsToValues]
  | cons first rest ih => simp [Expression.fieldsToValues, ih, Expression.Fits]

/-- A row of statements fits if each of them does. -/
theorem Statement.fits_toValues_iff (items : List Statement) :
    Value.Fits options (.list (Statement.toValues items)) ↔ ∀ item ∈ items, item.Fits options := by
  induction items with
  | nil => simp [Statement.toValues]
  | cons first rest ih => simp [Statement.toValues, ih, Statement.Fits]

/-- The statements of a block that fits. -/
theorem Statement.fits_of_block {body : List Statement}
    (hblock : (Node.block (Statement.toValues body)).toValue.Fits options) :
    ∀ statement ∈ body, statement.Fits options := by
  rw [Node.block, Value.Fits.toValue_iff, Statement.fits_toValues_iff] at hblock
  exact hblock.2

namespace Expression.Fits

variable {left right scope operand : Expression} {items : List Expression} {name : String}
  {callee : Name} {body : List Statement} {type : TypeExpr} {fields : List (String × Expression)}

/-- The items of an array that fits fit. -/
theorem items_of_array (hfits : (array items).Fits options) :
    ∀ item ∈ items, item.Fits options := by
  rw [Expression.Fits, toNode, Value.Fits.toValue_iff, fits_toValues_iff] at hfits
  exact hfits.2

/-- So do the values of a struct value. -/
theorem fields_of_structLiteral (hfits : (structLiteral name fields).Fits options) :
    ∀ field ∈ fields, field.2.Fits options := by
  simp only [Expression.Fits, toNode, Value.Fits.toValue_iff, Value.Fits.named_cons_iff,
    fits_fieldsToValues_iff] at hfits
  exact hfits.2.2.1

/-- So does the left side of an operation. -/
theorem left_of_binary {operator : BinaryOperator}
    (hfits : (binary left operator right).Fits options) : left.Fits options := by
  simp only [Expression.Fits, toNode, Value.Fits.toValue_iff, Value.Fits.named_cons_iff] at hfits
  exact hfits.2.1

/-- So does its right side. -/
theorem right_of_binary {operator : BinaryOperator}
    (hfits : (binary left operator right).Fits options) : right.Fits options := by
  simp only [Expression.Fits, toNode, Value.Fits.toValue_iff, Value.Fits.named_cons_iff] at hfits
  exact hfits.2.2.2.1

/-- So does what a unary operator stands in front of. -/
theorem operand_of_unary {operator : UnaryOperator}
    (hfits : (unary operator operand).Fits options) : operand.Fits options := by
  simp only [Expression.Fits, toNode, Value.Fits.toValue_iff, Value.Fits.named_cons_iff] at hfits
  exact hfits.2.2.1

/-- So does the scope of a member. -/
theorem scope_of_member (hfits : (member scope name).Fits options) : scope.Fits options := by
  simp only [Expression.Fits, toNode, Node.scope, Value.Fits.toValue_iff,
    Value.Fits.named_cons_iff] at hfits
  exact hfits.2.1

/-- So does that of a member that is called. -/
theorem scope_of_memberCall (hfits : (memberCall scope name items).Fits options) :
    scope.Fits options := by
  simp only [Expression.Fits, toNode, Node.scope, Value.Fits.toValue_iff,
    Value.Fits.named_cons_iff] at hfits
  exact hfits.2.1

/-- So do the arguments of such a call. -/
theorem arguments_of_memberCall (hfits : (memberCall scope name items).Fits options) :
    ∀ item ∈ items, item.Fits options := by
  simp only [Expression.Fits, toNode, Node.scope, Node.call, Value.Fits.toValue_iff,
    Value.Fits.named_cons_iff, fits_toValues_iff] at hfits
  exact hfits.2.2.1.2.2.1

/-- So do those of any other. -/
theorem arguments_of_call (hfits : (call callee items).Fits options) :
    ∀ item ∈ items, item.Fits options := by
  simp only [Expression.Fits, toNode, Node.call, Value.Fits.toValue_iff,
    Value.Fits.named_cons_iff, fits_toValues_iff] at hfits
  exact hfits.2.2.1

/-- So do the statements of a function value. -/
theorem body_of_function (hfits : (function type body).Fits options) :
    ∀ statement ∈ body, statement.Fits options := by
  simp only [Expression.Fits, toNode, Value.Fits.toValue_iff, Value.Fits.named_cons_iff] at hfits
  exact Statement.fits_of_block hfits.2.2.2.1

end Expression.Fits

end Parts

/-- A layer whose parsers transfer to those of another one on what fits the schema of some options.
The parsers for types are the same. -/
structure Layer.Transfers (options : Options) (layer other : Layer) : Prop where
  type : layer.type = other.type
  expression (literals : Bool) :
    Parser.Transfers (Expression.Fits options) (layer.expression literals)
      (other.expression literals)
  operand (literals : Bool) :
    Parser.Transfers (Expression.Fits options) (layer.operand literals) (other.operand literals)
  statement : Parser.Transfers (Statement.Fits options) layer.statement other.statement

/-- What is inside a construct under some options, and what is inside it under others. -/
inductive InsideTransfers (options : Options) : Option Layer → Option Layer → Prop
  | innermost : InsideTransfers options none none
  | around {layer other : Layer} (hlayer : layer.Transfers options other) :
    InsideTransfers options (some layer) (some other)

namespace InsideTransfers

variable {α : Type} {options : Options} {inside other : Option Layer}
  (hinside : InsideTransfers options inside other)
include hinside

/-- A construct transfers if it does one level further in, since the innermost one always fails. -/
theorem nested {accepted : α → Prop} {parser further : Layer → Parser α}
    (hparser : ∀ layer layer', layer.Transfers options layer' →
      Transfers accepted (parser layer) (further layer')) :
    Transfers accepted (BraceLang.nested inside parser) (BraceLang.nested other further) := by
  cases hinside with
  | innermost =>
    refine .of_failing (fun unread value rest hdone => ?_) _ _
    cases hdone
  | around hlayer => exact hparser _ _ hlayer

section Types

/-- Type arguments are the same under all options. -/
theorem typeArguments : Parser.typeArguments inside = Parser.typeArguments other := by
  cases hinside with
  | innermost => rfl
  | around hlayer => simp only [Parser.typeArguments, BraceLang.nested, hlayer.type]

/-- So is a type. -/
theorem type : Parser.type inside = Parser.type other := by
  rw [Parser.type, Parser.type, hinside.typeArguments]

/-- So is an annotation. -/
theorem annotation : Parser.annotation inside = Parser.annotation other := by
  rw [Parser.annotation, Parser.annotation, hinside.type]

end Types

/-- A block transfers with its statements. -/
theorem block : Transfers (fun body => ∀ statement ∈ body, statement.Fits options)
    (Parser.block inside) (Parser.block other) := by
  have hbody := hinside.nested fun layer layer' hlayer =>
    .behind (expectMark "\x7b" .blockOpening) fun _ => hlayer.statement.statements ["\x7d"]
  exact hbody.closing _ fun _ => id

/-- Arguments transfer with each of them. -/
theorem arguments : Transfers (fun items => ∀ item ∈ items, item.Fits options)
    (Parser.arguments inside) (Parser.arguments other) := by
  refine hinside.nested fun layer layer' hlayer => .behind advance fun _ => ?_
  have hitems := (hlayer.expression true).listed ")"
  exact hitems.closing _ fun _ => id

/-- A function value transfers with its body. -/
theorem functionValue : Transfers (Expression.Fits options) (Parser.functionValue inside)
    (Parser.functionValue other) := by
  unfold Parser.functionValue
  rw [hinside.type]
  -- up to the return type nothing is read that could differ
  refine .behind advance fun _ => .behind advance fun _ => .behind _ fun _ => ?_
  refine .behind _ fun returnType => ?_
  exact hinside.block.returning fun body => Expression.Fits.body_of_function

/-- A group transfers with what is inside. -/
theorem group : Transfers (Expression.Fits options) (Parser.group inside) (Parser.group other) := by
  refine hinside.nested fun layer layer' hlayer => .behind advance fun _ => ?_
  exact (hlayer.expression true).closing _ fun _ => id

/-- An array transfers with its items. -/
theorem array : Transfers (Expression.Fits options) (Parser.array inside) (Parser.array other) := by
  refine hinside.nested fun layer layer' hlayer => .behind advance fun _ => ?_
  have hitems := (hlayer.expression true).listed "]"
  exact hitems.closing _ fun items => Expression.Fits.items_of_array

/-- An operation transfers with its operand. -/
theorem unary (literals : Bool) (operator : UnaryOperator) :
    Transfers (Expression.Fits options) (Parser.unary inside literals operator)
      (Parser.unary other literals operator) := by
  refine hinside.nested fun layer layer' hlayer => .behind advance fun _ => ?_
  exact (hlayer.operand literals).returning fun operand => Expression.Fits.operand_of_unary

omit hinside in
/-- A field of a struct literal. -/
theorem literalField {layer layer' : Layer} (hlayer : layer.Transfers options layer')
    (struct : String) (given : List (String × Expression)) :
    Transfers (fun field : String × Expression => field.2.Fits options)
      (Parser.literalField layer struct given) (Parser.literalField layer' struct given) := by
  unfold Parser.literalField
  refine .behind _ fun next => ?_
  cases next with
  | none => exact .same _ _
  | some lexeme =>
    dsimp only
    split
    · split
      · exact .same _ _
      · refine .behind _ fun _ => .either _ ?_ (.same _ _)
        exact (hlayer.expression true).returning fun _ => id
    · exact .same _ _

/-- A struct value transfers with the values of its fields. -/
theorem structLiteral (name : String) :
    Transfers (Expression.Fits options) (Parser.structLiteral inside name)
      (Parser.structLiteral other name) := by
  refine hinside.nested fun layer layer' hlayer => .behind advance fun _ => ?_
  have hfields := Transfers.upTo (literalField hlayer name) [","] "\x7d"
  exact hfields.closing _ fun fields => Expression.Fits.fields_of_structLiteral

/-- What is called transfers with its arguments. -/
theorem called (name : Name) : Transfers (Expression.Fits options) (Parser.called inside name)
    (Parser.called other name) := by
  refine .either (nextIsMark ["("]) ?_ (.same _ _)
  exact hinside.arguments.returning fun items => Expression.Fits.arguments_of_call

/-- A name transfers with whatever goes on behind it. -/
theorem named (literals : Bool) (name : String) :
    Transfers (Expression.Fits options) (Parser.named inside literals name)
      (Parser.named other literals name) := by
  unfold Parser.named
  refine .behind _ fun brace => ?_
  split
  · exact hinside.structLiteral name
  · refine .behind _ fun generic => ?_
    split
    · rw [hinside.typeArguments]
      exact .behind _ fun _ => .behind _ fun arguments => hinside.called ⟨name, arguments⟩
    · exact hinside.called ⟨name, []⟩

/-- A mark decides in the same way under all options. -/
theorem marked (literals : Bool) (mark : String) :
    Transfers (Expression.Fits options) (Parser.marked inside literals mark)
      (Parser.marked other literals mark) := by
  unfold Parser.marked
  split
  · refine .behind _ fun second => ?_
    split
    · exact hinside.functionValue
    · exact hinside.group
  · split
    · exact hinside.array
    · split
      · exact hinside.unary literals _
      · exact .same _ _

/-- So does the first lexeme of an expression. -/
theorem primary (literals : Bool) :
    Transfers (Expression.Fits options) (Parser.primary inside literals)
      (Parser.primary other literals) := by
  unfold Parser.primary
  refine .behind _ fun next => ?_
  match next with
  | none => exact .same _ _
  | some ⟨kind, text⟩ =>
    cases kind with
    | number | string | endOfInput => exact .same _ _
    | symbol | operator => exact hinside.marked literals text
    | keyword | identifier =>
      dsimp only
      split
      · exact .same _ _
      · split
        · exact .behind _ fun _ => hinside.named literals text
        · exact .same _ _

/-- An operand transfers with its accesses, each of which holds the one in front of it. -/
theorem operand (literals : Bool) :
    Transfers (Expression.Fits options) (Parser.operand inside literals)
      (Parser.operand other literals) := by
  unfold Parser.operand
  refine (hinside.primary literals).extended (fun scope => ?_) fun scope => ?_
  · unfold nextAccess
    refine (accept_silent _).either ?_ (.pure id)
    refine (identifier_silent _).bind fun name => (nextIsMark_silent _).either ?_ ?_
    · exact (Yields.any _).returning fun _ _ _ => Expression.Fits.scope_of_memberCall
    · exact .pure Expression.Fits.scope_of_member
  · unfold nextAccess
    refine .either _ (.behind _ fun name => .either _ ?_ (.same _ _)) (.same _ _)
    exact hinside.arguments.returning fun _ => Expression.Fits.arguments_of_memberCall

/-- An operation transfers with both sides, at every precedence. -/
theorem binary (literals : Bool) (count : Nat) :
    Transfers (Expression.Fits options) (Parser.binary (Parser.operand inside literals) count)
      (Parser.binary (Parser.operand other literals) count) := by
  induction count with
  | zero => exact hinside.operand literals
  | succ count ih =>
    unfold Parser.binary
    refine ih.extended (fun left => ?_) fun left => ?_
    · unfold nextOperand
      refine (nextOperator_silent _).bind fun operator => ?_
      cases operator with
      | none => exact .pure id
      | some operator =>
        refine advance_silent.bind fun _ => ?_
        exact (Yields.any _).returning fun _ _ _ => Expression.Fits.left_of_binary
    · unfold nextOperand
      refine .behind _ fun operator => ?_
      cases operator with
      | none => exact .same _ _
      | some operator =>
        exact .behind _ fun _ => ih.returning fun _ => Expression.Fits.right_of_binary

/-- An expression transfers at the loosest precedence. -/
theorem expression (literals : Bool) :
    Transfers (Expression.Fits options) (Parser.expression inside literals)
      (Parser.expression other literals) :=
  hinside.binary literals _

end InsideTransfers

end BraceLang
