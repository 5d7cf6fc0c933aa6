import BraceLang.Proofs.Nesting.Composed
import BraceLang.Proofs.Nesting.Rows
import BraceLang.Proofs.Projection.Legible

/-!
# Trees of programs are legible

The tree view of a program holds texts and nodes only, but for what a type that is left out, a block
that is left out and a statement without a value are viewed as, and for the values of numbers and
truth values. So it is legible as far as the lexemes are that the program is read from: numbers have
to be natural and the names of fields may not hold a colon.
-/

namespace BraceLang

open BraceLang.Tree (Node Value Tag)

/-- A lexeme that is not read as a number but a natural one, and that names a field only if it holds
no colon. -/
structure Lexeme.IsLegible (lexeme : Lexeme) : Prop where
  natural : lexeme.kind = .number → ∀ value, Numeral.read lexeme.text = .ok value →
    ∃ natural : Nat, value = .integer natural
  plain : lexeme.kind = .identifier → ':' ∉ lexeme.text.toList

namespace Tree

namespace Value

/-- A text is legible. -/
@[simp] theorem legible_text (value : String) : (text value).Legible := .text value

/-- A list is legible when its items are. -/
@[simp] theorem legible_list (items : List Value) :
    (list items).Legible ↔ ∀ item ∈ items, item.Legible := by
  refine ⟨fun hlist => ?_, .list⟩
  cases hlist with
  | list hitems => exact hitems

/-- A node is no atom. -/
@[simp] theorem toValue_ne_atom (node : Node) (value : Atom) : node.toValue ≠ atom value := nofun

end Value

/-- A node that is neither a number nor a truth value is legible if its value is. -/
theorem Node.legible {tag : Tag} {value : Value} (hvalue : value.Legible)
    (hnumber : tag ≠ .number := by decide) (hboolean : tag ≠ .boolean := by decide) :
    (Node.mk tag value).toValue.Legible :=
  .node hnumber hboolean hvalue

/-- A node with named fields is legible if their values are. -/
theorem Node.named_legible {tag : Tag} {fields : List (String × Value)}
    (hfields : ∀ field ∈ fields, ':' ∉ field.1.toList ∧
      (field.1 = "type" → ∀ text, field.2 ≠ .atom (.text text)) ∧ field.2.Legible)
    (hnumber : tag ≠ .number := by decide) (hboolean : tag ≠ .boolean := by decide) :
    (Node.mk tag (.named fields)).toValue.Legible :=
  .node hnumber hboolean (.named (fun field hfield => (hfields field hfield).1)
    (fun field hfield => (hfields field hfield).2.1)
    fun field hfield => (hfields field hfield).2.2)

end Tree

mutual

/-- The view of a type is legible. -/
theorem TypeExpr.legible : (type : TypeExpr) → type.toNode.toValue.Legible
  | .mk name arguments => by
    have harguments := TypeExpr.argumentsLegible arguments
    refine Node.named_legible ?_
    simpa using harguments

/-- The view of the arguments of a type is legible. -/
theorem TypeExpr.argumentsLegible : (types : List TypeExpr) →
    ∀ value ∈ TypeExpr.toValues types, value.Legible
  | [] => fun _ hvalue => nomatch hvalue
  | first :: rest => List.forall_mem_cons.mpr ⟨first.legible, TypeExpr.argumentsLegible rest⟩

end

/-- The view of a type that may be left out is legible, and no text. -/
theorem TypeExpr.statedLegible (type : Option TypeExpr) :
    (∀ text, TypeExpr.optionToValue type ≠ .atom (.text text)) ∧
      (TypeExpr.optionToValue type).Legible := by
  cases type with
  | none => exact ⟨nofun, .null⟩
  | some type => exact ⟨nofun, type.legible⟩

/-- The view of a name is legible. -/
theorem Name.legible (name : Name) : name.toNode.toValue.Legible := by
  have harguments := TypeExpr.argumentsLegible name.typeArguments
  unfold Name.toNode
  split
  · exact Node.legible (.text name.text)
  · refine Node.named_legible ?_
    simpa using harguments

/-- The view of a parameter is legible. -/
theorem Parameter.legible (parameter : Parameter) : parameter.toNode.toValue.Legible := by
  have htype := TypeExpr.statedLegible parameter.type
  refine Node.named_legible ?_
  simpa using htype

/-- The view of a field of a struct is legible. -/
theorem StructField.legible (field : StructField) : field.toNode.toValue.Legible := by
  have htype := field.type.legible
  refine Node.named_legible ?_
  simpa using htype

/-- The view of a complaint is legible. -/
theorem Complaint.legible (complaint : Complaint) : complaint.toNode.toValue.Legible :=
  Node.legible (.text complaint.message)

namespace Tree.Node

/-- The view of a block is legible if its statements are. -/
theorem block_legible {body : List Statement}
    (hbody : ∀ statement ∈ body, statement.toNode.toValue.Legible) :
    (Node.block (Statement.toValues body)).toValue.Legible :=
  Node.legible (.list (Statement.forall_toValues.mpr hbody))

/-- The view of a call is legible if its parts are. -/
theorem call_legible {callee : Node} {arguments : List Expression}
    (hcallee : callee.toValue.Legible)
    (harguments : ∀ argument ∈ arguments, argument.toNode.toValue.Legible) :
    (Node.call callee (Expression.toValues arguments)).toValue.Legible := by
  refine Node.named_legible ?_
  simpa [Expression.forall_toValues, hcallee] using harguments

/-- The view of an access to a scope is legible if its parts are. -/
theorem scope_legible {scope member : Node} (hscope : scope.toValue.Legible)
    (hmember : member.toValue.Legible) : (Node.scope scope member).toValue.Legible := by
  refine Node.named_legible ?_
  simpa using ⟨hscope, hmember⟩

/-- The view of a conditional statement is legible if its parts are. -/
theorem conditional_legible {condition body : Node} {otherwise : Value}
    (hcondition : condition.toValue.Legible) (hbody : body.toValue.Legible)
    (hotherwise : otherwise.Legible) :
    (Node.conditional condition body otherwise).toValue.Legible := by
  refine Node.named_legible ?_
  simpa using ⟨hcondition, hbody, hotherwise⟩

end Tree.Node

/-- The parts of a branch have legible views. -/
def Branch.Legible : Branch → Prop
  | .mk condition body => condition.toNode.toValue.Legible ∧
    (Node.block (Statement.toValues body)).toValue.Legible

/-- The view of further branches is legible if their parts are. -/
theorem Branch.toValue_legible {others : List Branch} {otherwise : Value}
    (hothers : ∀ branch ∈ others, branch.Legible) (hotherwise : otherwise.Legible) :
    (Branch.toValue others otherwise).Legible := by
  induction others with
  | nil => exact hotherwise
  | cons branch rest ih =>
    obtain ⟨condition, body⟩ := branch
    obtain ⟨⟨hcondition, hbody⟩, hrest⟩ := List.forall_mem_cons.mp hothers
    exact Node.conditional_legible hcondition hbody (ih hrest)

section Composed

variable {given : Lexeme → Prop}

mutual

/-- The view of an expression that is composed of legible lexemes. -/
theorem Expression.Composed.legible {levels rank : Nat} {expression : Expression}
    (hgiven : ∀ lexeme, given lexeme → lexeme.IsLegible) :
    Expression.Composed given levels rank expression → expression.toNode.toValue.Legible
  | .number hlexeme hread => by
    obtain ⟨natural, rfl⟩ := (hgiven _ hlexeme).natural rfl _ hread
    exact .number natural
  | .string text => Node.legible (.text text)
  | .boolean value => .boolean value
  | .name _ => Name.legible _
  | .group hvalue => hvalue.legible hgiven
  | .array hitems => by
    have hitems := fun item hitem => (hitems item hitem).legible hgiven
    exact Node.legible (.list (Expression.forall_toValues.mpr hitems))
  | .structLiteral hnames hfields => by
    have hfields := fun field hfield => (hfields field hfield).legible hgiven
    refine Node.named_legible ?_
    simp only [List.forall_mem_cons, List.not_mem_nil, false_implies, implies_true, and_true]
    refine ⟨by simp, by decide, nofun, ?_⟩
    rw [Expression.fieldsToValues_eq_map]
    refine .record (List.forall_mem_map.mpr fun field hfield => ?_) (List.forall_mem_map.mpr hfields)
    exact ⟨field.1, rfl, (hgiven _ (hnames field hfield)).plain rfl, fun _ => nofun⟩
  | .binary hleft hright => by
    have hleft := hleft.legible hgiven
    have hright := hright.legible hgiven
    refine Node.named_legible ?_
    simpa using ⟨hleft, hright⟩
  | .single hvalue => hvalue.legible hgiven
  | .unary hoperand => by
    have hoperand := hoperand.legible hgiven
    refine Node.named_legible ?_
    simpa using hoperand
  | .member hscope => Node.scope_legible (hscope.legible hgiven) (Node.legible (.text _))
  | .memberCall hscope harguments => by
    have hscope := hscope.legible hgiven
    have harguments := fun argument hargument => (harguments argument hargument).legible hgiven
    exact Node.scope_legible hscope (Node.call_legible (Node.legible (.text _)) harguments)
  | .call _ harguments => by
    have harguments := fun argument hargument => (harguments argument hargument).legible hgiven
    exact Node.call_legible (Name.legible _) harguments
  | .function _ hbody => by
    have hbody := hbody.legible hgiven
    have htype := TypeExpr.legible
    refine Node.named_legible ?_
    simpa using ⟨htype _, hbody⟩
  | .error complaint => complaint.legible

/-- The view of a statement that is composed of legible lexemes. -/
theorem Statement.Composed.legible {levels : Nat} {statement : Statement}
    (hgiven : ∀ lexeme, given lexeme → lexeme.IsLegible) :
    Statement.Composed given levels statement → statement.toNode.toValue.Legible
  | .declaration _ hvalue => by
    have hvalue := hvalue.legible hgiven
    have htype := TypeExpr.statedLegible
    refine Node.named_legible ?_
    simpa using ⟨htype _, hvalue⟩
  | .conditional (.mk hcondition hbody) hothers hotherwise => by
    have hcondition := hcondition.legible hgiven
    have hbody := hbody.legible hgiven
    have hothers := fun branch hbranch => (hothers branch hbranch).legible hgiven
    have hotherwise := fun body hmem => (hotherwise body hmem).legible hgiven
    refine Node.conditional_legible hcondition hbody (Branch.toValue_legible hothers ?_)
    revert hotherwise
    cases ‹Option (List Statement)› with
    | none => exact fun _ => .null
    | some body => exact fun hotherwise => hotherwise body rfl
  | .whileLoop hcondition hbody => by
    have hcondition := hcondition.legible hgiven
    have hbody := hbody.legible hgiven
    refine Node.named_legible ?_
    simpa using ⟨hcondition, hbody⟩
  | .forLoop hiterable hbody => by
    have hiterable := hiterable.legible hgiven
    have hbody := hbody.legible hgiven
    refine Node.named_legible ?_
    simpa using ⟨hiterable, hbody⟩
  | .breakLoop | .continueLoop | .returnNothing => Node.legible .null
  | .returnValue hvalue | .expression hvalue => Node.legible (hvalue.legible hgiven)
  | .struct _ => by
    have hfields (field : StructField) := field.legible
    refine Node.named_legible ?_
    simp [hfields]
  | .impl hmethods => by
    have hmethods := fun method hmethod => (hmethods method hmethod).legible hgiven (.inl rfl)
    refine Node.named_legible ?_
    simpa [Function.forall_toValues] using hmethods
  | .function hfunction => hfunction.legible hgiven (.inr rfl)
  | .error complaint => complaint.legible

/-- The view of a block that is composed of legible lexemes. -/
theorem Statement.BlockComposed.legible {levels : Nat} {body : List Statement}
    (hgiven : ∀ lexeme, given lexeme → lexeme.IsLegible) :
    Statement.BlockComposed given levels body →
    (Node.block (Statement.toValues body)).toValue.Legible
  | .mk hbody => Node.block_legible fun statement hmem => (hbody statement hmem).legible hgiven

/-- The views of the parts of a branch that is composed of legible lexemes. -/
theorem Branch.Composed.legible {levels : Nat} {branch : Branch}
    (hgiven : ∀ lexeme, given lexeme → lexeme.IsLegible) :
    Branch.Composed given levels branch → branch.Legible
  | .mk hcondition hbody => ⟨hcondition.legible hgiven, hbody.legible hgiven⟩

/-- The view of a function or method that is composed of legible lexemes. -/
theorem Function.Composed.legible {levels : Nat} {function : Function}
    (hgiven : ∀ lexeme, given lexeme → lexeme.IsLegible) {tag : Tag}
    (htag : tag = .method ∨ tag = .function) :
    Function.Composed given levels function → (function.toNode tag).toValue.Legible
  | .mk _ _ hbody => by
    have hbody := hbody.legible hgiven
    have htype := TypeExpr.statedLegible
    have hparameters (parameter : Parameter) := parameter.legible
    have hnumber : tag ≠ .number := by rcases htag with rfl | rfl <;> decide
    have hboolean : tag ≠ .boolean := by rcases htag with rfl | rfl <;> decide
    refine Node.named_legible ?_ hnumber hboolean
    simp [hparameters, htype, hbody]

end

end Composed

end BraceLang
