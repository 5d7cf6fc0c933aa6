import BraceLang.Proofs.Nesting.Grammar
import BraceLang.Proofs.Nesting.Paths
import BraceLang.Proofs.Nesting.Rows

/-!
# Levels in trees

A tree shows the levels of nesting that were open where its nodes were read: blocks, arrays, struct
literals and unary operations each are one level further in than what they stand in, and so are the
arguments of calls, of types and of names with type arguments. A descent from the root goes from
node to node and passes levels on its way; an array among the arguments of a call is two levels
below the call. Parentheses around an expression leave nothing in the tree, so there may be more
levels than the tree shows, but never less.
-/

namespace BraceLang

open BraceLang.Tree (Node Value Tag)

namespace Tree

/-- How many levels nodes of a tag are further in than what they stand in. -/
def Tag.ownLevels : Tag → Nat
  | .block | .array | .structLiteral | .unary => 1
  | _ => 0

/-- How many levels the arguments of nodes of a tag are further in than the nodes. -/
def Tag.argumentLevels : Tag → Nat
  | .call | .type | .generic => 1
  | _ => 0

namespace Node

/-- How many levels further in than a node itself the nodes below one of its keys stand. -/
def levelsBelow (node : Node) (key : Option Atom) : Nat :=
  if key = some (.text "arguments") then node.tag.argumentLevels else 0

/-- A way from node to node downwards, and how many levels it passes. The level of the node where it
begins does not count. -/
inductive Descent : Node → Nat → Node → Prop
  | here (node : Node) : Descent node 0 node
  | down {node child last : Node} {key : Option Atom} {levels : Nat} :
    (key, child) ∈ node.edges → Descent child levels last →
    Descent node (node.levelsBelow key + child.tag.ownLevels + levels) last

/-- A node opens so many levels at most, its own included. -/
def Opens (bound : Nat) (node : Node) : Prop :=
  ∀ levels last, Descent node levels last → node.tag.ownLevels + levels ≤ bound

variable {bound less : Nat}

/-- A node that opens no more than some levels opens no more than more levels. -/
theorem Opens.mono {node : Node} (hnode : node.Opens less) (hless : less ≤ bound) :
    node.Opens bound :=
  fun levels last hdescent => Nat.le_trans (hnode levels last hdescent) hless

end Node

/-- The outermost nodes of a value open so many levels at most. -/
def Value.Opens (bound : Nat) (value : Value) : Prop := ∀ child ∈ value.children, child.Opens bound

variable {bound less : Nat}

namespace Value

/-- A value that opens few levels opens at most any larger number. -/
theorem Opens.mono {value : Value} (hvalue : value.Opens less) (hless : less ≤ bound) :
    value.Opens bound :=
  fun child hchild => (hvalue child hchild).mono hless

/-- An atom opens none. -/
@[simp] theorem opens_atom (value : Atom) : Value.Opens bound (.atom value) :=
  fun _ hchild => nomatch hchild

/-- Nor does a text. -/
@[simp] theorem opens_text (value : String) : Value.Opens bound (.text value) :=
  opens_atom (.text value)

/-- A node opens as many levels as a value as it does as a node. -/
@[simp] theorem opens_toValue (node : Node) : node.toValue.Opens bound ↔ node.Opens bound :=
  List.forall_mem_singleton

/-- The nodes of a list are those of its items. -/
@[simp] theorem opens_list (items : List Value) :
    Value.Opens bound (.list items) ↔ ∀ item ∈ items, item.Opens bound := by
  induction items with
  | nil => exact ⟨fun _ => List.forall_mem_nil _, fun _ => List.forall_mem_nil _⟩
  | cons item rest ih =>
    rw [List.forall_mem_cons, ← ih]
    exact List.forall_mem_append

/-- The nodes of a record are those of its fields. -/
@[simp] theorem opens_record (fields : List (Atom × Value)) :
    Value.Opens bound (.record fields) ↔ ∀ field ∈ fields, field.2.Opens bound := by
  induction fields with
  | nil => exact ⟨fun _ => List.forall_mem_nil _, fun _ => List.forall_mem_nil _⟩
  | cons field rest ih =>
    rw [List.forall_mem_cons, ← ih]
    exact List.forall_mem_append

/-- A record opens as many as the deepest of its fields. -/
@[simp] theorem opens_named (fields : List (String × Value)) :
    Value.Opens bound (.named fields) ↔ ∀ field ∈ fields, field.2.Opens bound := by
  rw [named, opens_record, List.forall_mem_map]

end Value

namespace Node.Opens

/-- What a node opens, from what its edges lead to. -/
theorem of_edges {node : Node} (hown : node.tag.ownLevels ≤ bound)
    (hedges : ∀ key child, (key, child) ∈ node.edges →
      ∃ less, child.Opens less ∧ node.tag.ownLevels + node.levelsBelow key + less ≤ bound) :
    node.Opens bound := by
  intro levels last hdescent
  cases hdescent with
  | here => exact hown
  | @down _ child _ key levels hedge hrest =>
    obtain ⟨less, hchild, hless⟩ := hedges key child hedge
    have hlevels := hchild levels last hrest
    omega

/-- A node that has no arguments, whatever its value is. -/
theorem of_value {tag : Tag} {value : Value} (harguments : tag.argumentLevels = 0)
    (hvalue : value.Opens less) (hbound : tag.ownLevels + less ≤ bound) :
    Node.Opens bound ⟨tag, value⟩ := by
  refine of_edges (by dsimp only; omega) fun key child hedge => ⟨less, hvalue child ?_, ?_⟩
  · have hchild := List.mem_map_of_mem (f := Prod.snd) hedge
    rwa [map_snd_edges] at hchild
  · simp only [levelsBelow, harguments, ite_self]
    omega

/-- A node that holds nothing but an atom. -/
theorem leaf {tag : Tag} {value : Atom} (hown : tag.ownLevels ≤ bound) :
    Node.Opens bound ⟨tag, .atom value⟩ :=
  of_edges hown fun _ _ hedge => nomatch hedge

/-- A node with a field for what it is about and a field for arguments, which stand a level further
in. -/
theorem of_arguments {tag : Tag} {key : String} {value : Value} {arguments : List Value}
    (htag : tag.ownLevels = 0 ∧ tag.argumentLevels = 1) (hkey : key ≠ "arguments")
    (hvalue : value.Opens bound)
    (harguments : ∀ argument ∈ arguments, ∃ less < bound, argument.Opens less) :
    Node.Opens bound ⟨tag, .named [(key, value), ("arguments", .list arguments)]⟩ := by
  obtain ⟨hown, hlevels⟩ := htag
  refine of_edges (by simp [hown]) fun edgeKey child hedge => ?_
  obtain ⟨⟨_, field⟩, hfield, hmem⟩ := List.mem_flatMap.mp hedge
  obtain ⟨_, hchild, hsame⟩ := List.mem_map.mp hmem
  obtain ⟨rfl, rfl⟩ := Prod.mk.inj hsame
  simp only [List.map_cons, List.map_nil, List.mem_cons, List.not_mem_nil, or_false,
    Prod.mk.injEq] at hfield
  rcases hfield with ⟨rfl, rfl⟩ | ⟨rfl, rfl⟩
  · exact ⟨bound, hvalue _ hchild, by simp [levelsBelow, hkey, hown]⟩
  · cases arguments with
    | nil => cases hchild
    | cons first rest =>
      obtain ⟨_, hpositive, -⟩ := harguments first List.mem_cons_self
      have hitems : Value.Opens (bound - 1) (.list (first :: rest)) :=
        (Value.opens_list _).mpr fun argument hargument => by
          obtain ⟨less, hless, hopens⟩ := harguments argument hargument
          exact hopens.mono (by omega)
      refine ⟨bound - 1, hitems _ hchild, ?_⟩
      simp only [levelsBelow, hown, hlevels, if_true]
      omega

end Node.Opens

end Tree

section Parts

variable {bound : Nat}

mutual

/-- The levels of a type. -/
theorem TypeExpr.opens : (type : TypeExpr) → type.toNode.Opens type.levels
  | .mk name arguments => by
    have harguments := TypeExpr.argumentsOpen arguments
    exact .of_arguments ⟨rfl, rfl⟩ (by decide) (Value.opens_text name) harguments

/-- The levels of the arguments of a type: together they open one more than each of them. -/
theorem TypeExpr.argumentsOpen : (types : List TypeExpr) →
    ∀ value ∈ TypeExpr.toValues types, ∃ less < TypeExpr.argumentLevels types, value.Opens less
  | [] => fun _ hvalue => nomatch hvalue
  | first :: rest => by
    have hfirst := first.opens
    have hrest := TypeExpr.argumentsOpen rest
    have htogether := TypeExpr.argumentLevels_le rest
    refine List.forall_mem_cons.mpr ⟨⟨_, ?_, (Value.opens_toValue _).mpr hfirst⟩,
      fun value hvalue => ?_⟩
    · exact Nat.lt_succ_of_le (Nat.le_max_left _ _)
    · obtain ⟨less, hless, hopens⟩ := hrest value hvalue
      refine ⟨less, ?_, hopens⟩
      rw [TypeExpr.argumentLevels]
      omega

end

/-- The levels of a type that may be left out. -/
theorem TypeExpr.statedOpens {type : Option TypeExpr} (htype : TypeExpr.statedLevels type ≤ bound) :
    (TypeExpr.optionToValue type).Opens bound := by
  cases type with
  | none => exact Value.opens_atom .null
  | some type => exact (Value.opens_toValue _).mpr (type.opens.mono htype)

/-- The levels of a name. -/
theorem Name.opens {name : Name} (hname : TypeExpr.argumentLevels name.typeArguments ≤ bound) :
    name.toNode.Opens bound := by
  have harguments := TypeExpr.argumentsOpen name.typeArguments
  unfold Name.toNode
  split
  · exact .leaf (Nat.zero_le _)
  · refine .of_arguments ⟨rfl, rfl⟩ (by decide) (Value.opens_text _) fun argument hargument => ?_
    obtain ⟨less, hless, hopens⟩ := harguments argument hargument
    exact ⟨less, by omega, hopens⟩

/-- The levels of a node that is on the level of what it stands in, with its parts in named
fields. -/
theorem Tree.Node.named_opens {tag : Tag} {fields : List (String × Value)}
    (htag : tag.ownLevels = 0 ∧ tag.argumentLevels = 0)
    (hfields : ∀ field ∈ fields, field.2.Opens bound) :
    Node.Opens bound ⟨tag, .named fields⟩ :=
  .of_value htag.2 ((Value.opens_named fields).mpr hfields) (by omega)

/-- The levels of a parameter. -/
theorem Parameter.opens {parameter : Parameter}
    (htype : TypeExpr.statedLevels parameter.type ≤ bound) : parameter.toNode.Opens bound :=
  Node.named_opens ⟨rfl, rfl⟩ (by simpa using TypeExpr.statedOpens htype)

/-- The levels of a field of a struct. -/
theorem StructField.opens {field : StructField} (htype : field.type.levels ≤ bound) :
    field.toNode.Opens bound :=
  Node.named_opens ⟨rfl, rfl⟩ (by simpa using field.type.opens.mono htype)

/-- The levels of a block. -/
theorem Tree.Node.block_opens {body : List Statement}
    (hbody : ∀ statement ∈ body, statement.toNode.Opens bound) :
    (Node.block (Statement.toValues body)).Opens (bound + 1) := by
  have hvalue : Value.Opens bound (.list (Statement.toValues body)) := by
    rw [Value.opens_list, Statement.forall_toValues]
    simpa using hbody
  exact .of_value rfl hvalue (Nat.le_of_eq (Nat.add_comm 1 bound))

/-- The levels of a call. -/
theorem Tree.Node.call_opens {callee : Node} {arguments : List Expression}
    (hcallee : callee.Opens (bound + 1))
    (harguments : ∀ argument ∈ arguments, argument.toNode.Opens bound) :
    (Node.call callee (Expression.toValues arguments)).Opens (bound + 1) := by
  refine .of_arguments ⟨rfl, rfl⟩ (by decide) ((Value.opens_toValue _).mpr hcallee) ?_
  rw [Expression.forall_toValues]
  exact fun argument hargument =>
    ⟨bound, Nat.lt_succ_self bound, (Value.opens_toValue _).mpr (harguments argument hargument)⟩

/-- The levels of the parts of a branch. -/
def Branch.Opens (bound : Nat) : Branch → Prop
  | .mk condition body => condition.toNode.Opens bound ∧
    (Node.block (Statement.toValues body)).Opens bound

/-- The levels of a conditional statement. -/
theorem Tree.Node.conditional_opens {condition body : Node} {otherwise : Value}
    (hcondition : condition.Opens bound) (hbody : body.Opens bound)
    (hotherwise : otherwise.Opens bound) :
    (Node.conditional condition body otherwise).Opens bound :=
  Node.named_opens ⟨rfl, rfl⟩ (by simpa using ⟨hcondition, hbody, hotherwise⟩)

/-- The levels of further branches. -/
theorem Branch.toValue_opens {others : List Branch} {otherwise : Value}
    (hothers : ∀ branch ∈ others, branch.Opens bound) (hotherwise : otherwise.Opens bound) :
    (Branch.toValue others otherwise).Opens bound := by
  induction others with
  | nil => exact hotherwise
  | cons branch rest ih =>
    obtain ⟨condition, body⟩ := branch
    obtain ⟨⟨hcondition, hbody⟩, hrest⟩ := List.forall_mem_cons.mp hothers
    exact (Value.opens_toValue _).mpr (Node.conditional_opens hcondition hbody (ih hrest))

end Parts

section Composed

variable {given : Lexeme → Prop}

mutual

/-- An expression opens no more levels than may be opened where it is composed. -/
theorem Expression.Composed.opens {levels rank : Nat} {expression : Expression} :
    Expression.Composed given levels rank expression → expression.toNode.Opens levels
  | .number _ _ | .string _ | .boolean _ | .error _ => .leaf (Nat.zero_le _)
  | .name hname => Name.opens hname
  | .group hvalue => hvalue.opens.mono (Nat.le_succ _)
  | .array hitems => by
    have hitems := fun item hitem => (hitems item hitem).opens
    refine .of_value rfl ((Value.opens_list _).mpr ?_) (Nat.le_of_eq (Nat.add_comm _ _))
    exact Expression.forall_toValues.mpr fun item hitem =>
      (Value.opens_toValue _).mpr (hitems item hitem)
  | .structLiteral _ hfields => by
    have hfields := fun field hfield => (hfields field hfield).opens
    refine .of_value rfl ?_ (Nat.le_of_eq (Nat.add_comm _ _))
    simp only [Value.opens_named, List.forall_mem_cons, Value.opens_text, Value.opens_record,
      Expression.fieldsToValues_eq_map, List.forall_mem_map, Value.opens_toValue,
      List.not_mem_nil, false_implies, implies_true, and_true, true_and]
    exact hfields
  | .binary hleft hright => by
    have hleft := hleft.opens
    have hright := hright.opens
    exact Node.named_opens ⟨rfl, rfl⟩ (by simpa using ⟨hleft, hright⟩)
  | .single hvalue => hvalue.opens
  | .unary hoperand => by
    have hoperand := hoperand.opens
    exact .of_value rfl (by simpa using hoperand) (Nat.le_of_eq (Nat.add_comm _ _))
  | .member hscope => by
    have hscope := hscope.opens
    exact Node.named_opens ⟨rfl, rfl⟩ (by simpa using ⟨hscope, .leaf (Nat.zero_le _)⟩)
  | .memberCall hscope harguments => by
    have hscope := hscope.opens
    have harguments := fun argument hargument => (harguments argument hargument).opens
    have hcallee {name : String} {bound : Nat} : Node.Opens bound ⟨.identifier, .text name⟩ :=
      .leaf (Nat.zero_le bound)
    have hcall {name : String} := Node.call_opens (@hcallee name _) harguments
    exact Node.named_opens ⟨rfl, rfl⟩ (by simpa using ⟨hscope, hcall⟩)
  | .call hcallee harguments => by
    have harguments := fun argument hargument => (harguments argument hargument).opens
    exact Node.call_opens (Name.opens hcallee) harguments
  | .function htype hbody => by
    have hbody := hbody.opens
    have htype := (TypeExpr.opens _).mono htype
    exact Node.named_opens ⟨rfl, rfl⟩ (by simpa using ⟨htype, hbody⟩)

/-- A statement opens no more levels than may be opened where it is composed. -/
theorem Statement.Composed.opens {levels : Nat} {statement : Statement} :
    Statement.Composed given levels statement → statement.toNode.Opens levels
  | .declaration htype hvalue => by
    have hvalue := hvalue.opens
    exact Node.named_opens ⟨rfl, rfl⟩ (by simpa using ⟨TypeExpr.statedOpens htype, hvalue⟩)
  | .conditional (.mk hcondition hbody) hothers hotherwise => by
    have hcondition := hcondition.opens
    have hbody := hbody.opens
    have hothers := fun branch hbranch => (hothers branch hbranch).opens
    have hotherwise := fun body hmem => (hotherwise body hmem).opens
    refine Node.conditional_opens hcondition hbody (Branch.toValue_opens hothers ?_)
    revert hotherwise
    cases ‹Option (List Statement)› with
    | none => exact fun _ => Value.opens_atom .null
    | some body => exact fun hotherwise => (Value.opens_toValue _).mpr (hotherwise body rfl)
  | .whileLoop hcondition hbody => by
    have hcondition := hcondition.opens
    have hbody := hbody.opens
    exact Node.named_opens ⟨rfl, rfl⟩ (by simpa using ⟨hcondition, hbody⟩)
  | .forLoop hiterable hbody => by
    have hiterable := hiterable.opens
    have hbody := hbody.opens
    exact Node.named_opens ⟨rfl, rfl⟩ (by simpa using ⟨hiterable, hbody⟩)
  | .breakLoop | .continueLoop | .returnNothing | .error _ => .leaf (Nat.zero_le _)
  | .returnValue hvalue | .expression hvalue => by
    have hvalue := hvalue.opens
    exact .of_value rfl ((Value.opens_toValue _).mpr hvalue) (Nat.le_of_eq (Nat.zero_add _))
  | .struct htypes => by
    refine Node.named_opens ⟨rfl, rfl⟩ ?_
    simp only [List.forall_mem_cons, Value.opens_text, Value.opens_list,
      List.forall_mem_map, Value.opens_toValue, List.not_mem_nil, false_implies, implies_true,
      and_true, true_and]
    exact fun field hfield => StructField.opens (htypes field hfield)
  | .impl hmethods => by
    have hmethods := fun method hmethod => (hmethods method hmethod).opens .method ⟨rfl, rfl⟩
    refine Node.named_opens ⟨rfl, rfl⟩ ?_
    simp only [List.forall_mem_cons, Value.opens_text, Value.opens_list,
      Function.forall_toValues, Value.opens_toValue, List.not_mem_nil, false_implies,
      implies_true, and_true, true_and]
    exact hmethods
  | .function hfunction => hfunction.opens .function ⟨rfl, rfl⟩

/-- A block opens a level for its statements. -/
theorem Statement.BlockComposed.opens {levels : Nat} {body : List Statement} :
    Statement.BlockComposed given levels body →
    (Node.block (Statement.toValues body)).Opens levels
  | .mk hbody => by
    have hbody := fun statement hmem => (hbody statement hmem).opens
    exact Node.block_opens hbody

/-- A branch opens no more levels than may be opened where it is composed. -/
theorem Branch.Composed.opens {levels : Nat} {branch : Branch} :
    Branch.Composed given levels branch → branch.Opens levels
  | .mk hcondition hbody => ⟨hcondition.opens, hbody.opens⟩

/-- A function or method opens no more levels than may be opened where it is composed. -/
theorem Function.Composed.opens {levels : Nat} {function : Function} (tag : Tag)
    (htag : tag.ownLevels = 0 ∧ tag.argumentLevels = 0) :
    Function.Composed given levels function → (function.toNode tag).Opens levels
  | .mk hparameters htype hbody => by
    have hbody := hbody.opens
    refine Node.named_opens htag ?_
    simp only [List.forall_mem_cons, Value.opens_text, Value.opens_list,
      List.forall_mem_map, Value.opens_toValue, List.not_mem_nil, false_implies, implies_true,
      and_true, true_and]
    exact ⟨fun parameter hparameter => Parameter.opens (hparameters parameter hparameter),
      TypeExpr.statedOpens htype, hbody⟩

end

/-- No descent from the root of the tree of a program passes more levels than may be open at once.
-/
theorem program_levels {options : Options} {lexemes rest : List Lexeme} {program : List Statement}
    {reports : List Report} (hprogram : Parser.program options lexemes = .done program rest reports)
    {levels : Nat} {last : Node}
    (hdescent : Node.Descent (Statement.blockToNode program) levels last) : levels ≤ maxNesting := by
  have hcomposed := composed_of_program hprogram
  have hroot := Node.block_opens fun statement hmem => (hcomposed statement hmem).opens
  have hlevels : 1 + levels ≤ maxNesting + 1 := hroot levels last hdescent
  omega

end Composed

end BraceLang
