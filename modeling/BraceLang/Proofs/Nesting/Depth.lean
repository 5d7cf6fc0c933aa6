import BraceLang.Proofs.Nesting.Grammar
import BraceLang.Proofs.Nesting.Paths
import BraceLang.Proofs.Nesting.Rows

/-!
# The depth of trees

Three edges of a tree lead to what a loop of the parser has read before or reads next: the left
operand of a binary operation, the scope of an access, and a further branch of a conditional
statement. Apart from these, a path goes down in one of two ways. It comes to an operand of a lower
rank, or it comes one level further in, where the ranks start anew. Both the ranks and the levels
are limited, so the length of paths is: a level takes ten edges at most, which are one to a
statement, one to an expression in it, one for each of seven ranks, and one to what opens the next
level.
-/

namespace BraceLang

open BraceLang.Tree (Node Value Tag)

namespace Tree.Node

/-- The edges to the left operand of a binary operation and to the scope of an access. -/
def isChainEdge (node : Node) (key : Option Atom) (_child : Node) : Bool :=
  node.tag == .binary && key == some (.text "left") ||
    node.tag == .scope && key == some (.text "namespace")

/-- The edge from a conditional statement to its next branch. -/
def isBranchEdge (node : Node) (key : Option Atom) (child : Node) : Bool :=
  node.tag == .conditional && key == some (.text "else") && child.tag == .conditional

/-- The edges to what a loop reads. -/
def isLoopEdge (node : Node) (key : Option Atom) (child : Node) : Bool :=
  isChainEdge node key child || isBranchEdge node key child

end Tree.Node

open Tree.Node (isLoopEdge)

variable {given : Lexeme → Prop} {bound : Nat}

section Parts

mutual

/-- Paths from a type. -/
theorem TypeExpr.within : (type : TypeExpr) → type.toNode.Within isLoopEdge (type.levels + 1)
  | .mk name arguments => by
    refine .of_value (Nat.lt_succ_self _) ?_
    simp only [Value.within_named, List.forall_mem_cons, Value.within_text, Value.within_list,
      List.not_mem_nil, false_implies, implies_true, and_true, true_and]
    exact TypeExpr.argumentsWithin arguments

/-- Paths from the arguments of a type. -/
theorem TypeExpr.argumentsWithin : (types : List TypeExpr) →
    ∀ value ∈ TypeExpr.toValues types, value.Within isLoopEdge (TypeExpr.argumentLevels types)
  | [] => fun _ hvalue => nomatch hvalue
  | first :: rest => by
    have hfirst := first.within
    have hrest := TypeExpr.argumentsWithin rest
    have hargument := TypeExpr.argumentLevels_le rest
    refine List.forall_mem_cons.mpr ⟨?_, fun value hvalue => ?_⟩
    · rw [Value.within_toValue]
      exact hfirst.mono (Nat.succ_le_succ (Nat.le_max_left _ _))
    · exact (hrest value hvalue).mono
        (Nat.le_trans hargument (Nat.succ_le_succ (Nat.le_max_right _ _)))

end

/-- Paths from a type that may be left out. -/
theorem TypeExpr.statedWithin {type : Option TypeExpr} (htype : TypeExpr.statedLevels type < bound) :
    (TypeExpr.optionToValue type).Within isLoopEdge bound := by
  cases type with
  | none => exact Value.within_atom .null
  | some type => exact (Value.within_toValue _).mpr (type.within.mono htype)

/-- Paths from a name. -/
theorem Name.within {name : Name}
    (hname : TypeExpr.argumentLevels name.typeArguments < bound) :
    name.toNode.Within isLoopEdge bound := by
  have harguments := TypeExpr.argumentsWithin name.typeArguments
  unfold Name.toNode
  split
  · exact .leaf _
  · refine .of_value hname ?_
    simpa [-Value.within_list] using (Value.within_list _).mpr harguments

/-- Paths from a parameter. -/
theorem Parameter.within {parameter : Parameter}
    (htype : TypeExpr.statedLevels parameter.type < bound) :
    parameter.toNode.Within isLoopEdge (bound + 1) :=
  .of_value (Nat.lt_succ_self bound) (by simpa using TypeExpr.statedWithin htype)

/-- Paths from a field of a struct. -/
theorem StructField.within {field : StructField} (htype : field.type.levels < bound) :
    field.toNode.Within isLoopEdge (bound + 1) :=
  .of_value (Nat.lt_succ_self bound) (by simpa using field.type.within.mono htype)

/-- Paths from a block. -/
theorem Tree.Node.block_within {body : List Statement}
    (hbody : ∀ statement ∈ body, statement.toNode.Within isLoopEdge bound) :
    (Node.block (Statement.toValues body)).Within isLoopEdge (bound + 1) := by
  refine .of_value (Nat.lt_succ_self bound) ?_
  rw [Value.within_list, Statement.forall_toValues]
  simpa using hbody

/-- Paths from a call. -/
theorem Tree.Node.call_within {callee : Node} {arguments : List Expression}
    (hcallee : callee.Within isLoopEdge bound)
    (harguments : ∀ argument ∈ arguments, argument.toNode.Within isLoopEdge bound) :
    (Node.call callee (Expression.toValues arguments)).Within isLoopEdge (bound + 1) := by
  refine .of_value (Nat.lt_succ_self bound) ?_
  simpa [Expression.forall_toValues, hcallee] using harguments

/-- Paths from an access to a scope, which itself is reached for free. -/
theorem Tree.Node.scope_within {scope member : Node} (hscope : scope.Within isLoopEdge bound)
    (hmember : ∃ less < bound, member.Within isLoopEdge less) :
    (Node.scope scope member).Within isLoopEdge bound := by
  obtain ⟨less, hless, hmember⟩ := hmember
  refine .named (List.forall_mem_cons.mpr ⟨.inr ⟨?_, ?_⟩, List.forall_mem_singleton.mpr (.inl ?_)⟩)
  · exact (Value.within_toValue scope).mpr hscope
  · exact fun child _ => rfl
  · exact ⟨less, hless, (Value.within_toValue member).mpr hmember⟩

/-- Paths from what stands behind a branch: a further conditional statement is reached for free. -/
def Tree.Value.WithinElse (bound : Nat) (value : Value) : Prop :=
  value.Within isLoopEdge bound ∨
    ∃ node : Node, value = node.toValue ∧ node.tag = .conditional ∧
      node.Within isLoopEdge (bound + 1)

/-- Paths from a conditional statement. -/
theorem Tree.Node.conditional_within {condition body : Node} {otherwise : Value}
    (hcondition : condition.Within isLoopEdge bound) (hbody : body.Within isLoopEdge bound)
    (hotherwise : otherwise.WithinElse bound) :
    (Node.conditional condition body otherwise).Within isLoopEdge (bound + 1) := by
  have hcounted {value : Value} (hvalue : value.Within isLoopEdge bound) :
      ∃ less < bound + 1, value.Within isLoopEdge less := ⟨bound, Nat.lt_succ_self bound, hvalue⟩
  refine .named (List.forall_mem_cons.mpr ⟨.inl (hcounted ?_), List.forall_mem_cons.mpr
    ⟨.inl (hcounted ?_), List.forall_mem_singleton.mpr ?_⟩⟩)
  · exact (Value.within_toValue condition).mpr hcondition
  · exact (Value.within_toValue body).mpr hbody
  · rcases hotherwise with hvalue | ⟨node, rfl, htag, hnode⟩
    · exact .inl (hcounted hvalue)
    · refine .inr ⟨(Value.within_toValue node).mpr hnode, fun child hchild => ?_⟩
      obtain rfl : child = node := List.mem_singleton.mp hchild
      simp [isLoopEdge, Node.isBranchEdge, htag]

/-- Paths from the parts of a branch. -/
def Branch.Within (bound : Nat) : Branch → Prop
  | .mk condition body => condition.toNode.Within isLoopEdge bound ∧
    (Node.block (Statement.toValues body)).Within isLoopEdge bound

/-- Paths from further branches: each is reached for free from the one before. -/
theorem Branch.toValue_within {others : List Branch} {otherwise : Value}
    (hothers : ∀ branch ∈ others, branch.Within bound) (hotherwise : otherwise.WithinElse bound) :
    (Branch.toValue others otherwise).WithinElse bound := by
  induction others with
  | nil => exact hotherwise
  | cons branch rest ih =>
    obtain ⟨condition, body⟩ := branch
    obtain ⟨⟨hcondition, hbody⟩, hrest⟩ := List.forall_mem_cons.mp hothers
    exact .inr ⟨_, rfl, rfl, Node.conditional_within hcondition hbody (ih hrest)⟩

end Parts

section Composed

/-- The rank where the ranks start anew. -/
theorem Expression.topRank_eq : Expression.topRank = 7 := rfl

mutual

/-- Paths from an expression: every counted edge goes to a lower rank or further in. -/
theorem Expression.Composed.within {levels rank : Nat} {expression : Expression} :
    Expression.Composed given levels rank expression →
    expression.toNode.Within isLoopEdge (10 * levels + rank + 1)
  | .number _ _ | .string _ | .boolean _ | .error _ => .leaf _
  | .name hname => Name.within (by omega)
  | .group hvalue => hvalue.within.mono (by rw [Expression.topRank_eq]; omega)
  | .array hitems => by
    have hitems := fun item hitem => (hitems item hitem).within
    rw [Expression.topRank_eq] at hitems
    refine .of_value (Nat.lt_succ_self _) ((Value.within_list _).mpr ?_)
    refine Expression.forall_toValues.mpr fun item hitem => (Value.within_toValue _).mpr ?_
    exact (hitems item hitem).mono (by omega)
  | .structLiteral _ hfields => by
    have hfields := fun field hfield => (hfields field hfield).within
    rw [Expression.topRank_eq] at hfields
    refine .of_value (Nat.lt_succ_self _) ?_
    simp only [Value.within_named, List.forall_mem_cons, Value.within_text, Value.within_record,
      Expression.fieldsToValues_eq_map, List.forall_mem_map, Value.within_toValue,
      List.not_mem_nil, false_implies, implies_true, and_true, true_and]
    exact fun field hfield => (hfields field hfield).mono (by omega)
  | .binary hleft hright => by
    -- The left operand keeps the rank, but it is reached for free.
    have hleft := hleft.within
    have hright := hright.within
    refine .named (List.forall_mem_cons.mpr ⟨.inr ⟨?_, fun _ _ => rfl⟩, List.forall_mem_cons.mpr
      ⟨.inl ⟨0, Nat.succ_pos _, Value.within_text _⟩, List.forall_mem_singleton.mpr (.inl ?_)⟩⟩)
    · exact (Value.within_toValue _).mpr hleft
    · exact ⟨_, by omega, (Value.within_toValue _).mpr hright⟩
  | .single hvalue => hvalue.within.mono (by omega)
  | .unary hoperand => by
    have hoperand := hoperand.within
    refine .of_value (Nat.lt_succ_self _) ?_
    simpa using hoperand.mono (by omega)
  | .member hscope => by
    have hscope := hscope.within
    exact Node.scope_within hscope ⟨0, Nat.succ_pos _, .leaf _⟩
  | .memberCall hscope harguments => by
    have hscope := hscope.within
    have harguments := fun argument hargument => (harguments argument hargument).within
    rw [Expression.topRank_eq] at harguments
    exact Node.scope_within hscope ⟨_, by omega, Node.call_within (.leaf _) harguments⟩
  | .call hcallee harguments => by
    have harguments := fun argument hargument => (harguments argument hargument).within
    rw [Expression.topRank_eq] at harguments
    refine Node.call_within (Name.within (by omega)) fun argument hargument => ?_
    exact (harguments argument hargument).mono (by omega)
  | .function htype (.mk hbody) => by
    have hbody := Node.block_within fun statement hmem => (hbody statement hmem).within
    refine .of_value (Nat.lt_succ_self _) ?_
    simp only [Value.within_named, List.forall_mem_cons, Value.within_list, Value.within_toValue,
      List.not_mem_nil, false_implies, implies_true, and_true, true_and]
    exact ⟨(TypeExpr.within _).mono (by omega), hbody.mono (by omega)⟩

/-- Paths from a statement. -/
theorem Statement.Composed.within {levels : Nat} {statement : Statement} :
    Statement.Composed given levels statement →
    statement.toNode.Within isLoopEdge (10 * levels + 9)
  | .declaration htype hvalue => by
    have hvalue := hvalue.within
    rw [Expression.topRank_eq] at hvalue
    refine .of_value (Nat.lt_succ_self _) ?_
    simpa using ⟨TypeExpr.statedWithin (by omega), hvalue⟩
  | .conditional (.mk hcondition hbody) hothers hotherwise => by
    have hcondition := hcondition.within
    have hbody := hbody.within
    have hothers := fun branch hbranch => (hothers branch hbranch).within
    have hotherwise := fun body hmem => (hotherwise body hmem).within
    rw [Expression.topRank_eq] at hcondition
    refine Node.conditional_within hcondition (hbody.mono (by omega))
      (Branch.toValue_within hothers (.inl ?_))
    -- The last block is no conditional statement, so its edge counts.
    revert hotherwise
    cases ‹Option (List Statement)› with
    | none => exact fun _ => Value.within_atom .null
    | some body => exact fun hotherwise =>
      (Value.within_toValue _).mpr ((hotherwise body rfl).mono (by omega))
  | .whileLoop hcondition hbody => by
    have hcondition := hcondition.within
    have hbody := hbody.within
    rw [Expression.topRank_eq] at hcondition
    refine .of_value (Nat.lt_succ_self _) ?_
    simpa using ⟨hcondition, hbody.mono (by omega)⟩
  | .forLoop hiterable hbody => by
    have hiterable := hiterable.within
    have hbody := hbody.within
    rw [Expression.topRank_eq] at hiterable
    refine .of_value (Nat.lt_succ_self _) ?_
    simpa using ⟨hiterable, hbody.mono (by omega)⟩
  | .breakLoop | .continueLoop | .returnNothing | .error _ => .leaf _
  | .returnValue hvalue | .expression hvalue => by
    have hvalue := hvalue.within
    rw [Expression.topRank_eq] at hvalue
    exact .of_value (Nat.lt_succ_self _) ((Value.within_toValue _).mpr hvalue)
  | .struct htypes => by
    refine .of_value (Nat.lt_succ_self _) ?_
    simp only [Value.within_named, List.forall_mem_cons, Value.within_text, Value.within_list,
      List.forall_mem_map, Value.within_toValue, List.not_mem_nil, false_implies, implies_true,
      and_true, true_and]
    intro field hfield
    have htype := htypes field hfield
    exact StructField.within (by omega)
  | .impl hmethods => by
    have hmethods := fun method hmethod => (hmethods method hmethod).within .method
    refine .of_value (Nat.lt_succ_self _) ?_
    simp only [Value.within_named, List.forall_mem_cons, Value.within_text, Value.within_list,
      Function.forall_toValues, Value.within_toValue, List.not_mem_nil, false_implies,
      implies_true, and_true, true_and]
    exact fun method hmethod => (hmethods method hmethod).mono (by omega)
  | .function hfunction => (hfunction.within .function).mono (by omega)

/-- Paths from a block. -/
theorem Statement.BlockComposed.within {levels : Nat} {body : List Statement} :
    Statement.BlockComposed given levels body →
    (Node.block (Statement.toValues body)).Within isLoopEdge (10 * levels)
  | .mk hbody => by
    have hbody := fun statement hmem => (hbody statement hmem).within
    exact Node.block_within hbody

/-- Paths from a branch. -/
theorem Branch.Composed.within {levels : Nat} {branch : Branch} :
    Branch.Composed given levels branch → branch.Within (10 * levels + 8)
  | .mk hcondition hbody => by
    have hcondition := hcondition.within
    have hbody := hbody.within
    rw [Expression.topRank_eq] at hcondition
    exact ⟨hcondition, hbody.mono (by omega)⟩

/-- Paths from a function or method. -/
theorem Function.Composed.within {levels : Nat} {function : Function} (tag : Tag) :
    Function.Composed given levels function →
    (function.toNode tag).Within isLoopEdge (10 * levels + 3)
  | .mk hparameters htype hbody => by
    have hbody := hbody.within
    refine .of_value (Nat.lt_succ_self _) ?_
    simp only [Value.within_named, List.forall_mem_cons, Value.within_text, Value.within_list,
      List.forall_mem_map, Value.within_toValue, List.not_mem_nil, false_implies, implies_true,
      and_true, true_and]
    refine ⟨fun parameter hparameter => ?_, TypeExpr.statedWithin (by omega), hbody.mono (by omega)⟩
    have hparameter := hparameters parameter hparameter
    exact Parameter.within (by omega)

end

end Composed

end BraceLang
