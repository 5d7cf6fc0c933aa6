import BraceLang.Proofs.Strictness.Expressions

/-!
# Statements under other options

What may be missing is asked for in one place only: behind the parameters of a function or a method.
Where nothing is missing that other options ask for, every statement transfers to the statement
under these, and from the innermost layer outwards so does every program.
-/

namespace BraceLang

open BraceLang.Parser BraceLang.Tree

/-- A branch of which every node fits the schema. -/
def Branch.Fits (options : Options) : Branch → Prop
  | .mk condition body => condition.Fits options ∧ ∀ statement ∈ body, statement.Fits options

/-- A function with a tag of which every node fits the schema. -/
def Function.Fits (options : Options) (tag : Tag) (function : Function) : Prop :=
  (function.toNode tag).toValue.Fits options

section Parts

variable {options : Options}

/-- The nodes of a conditional are those of its condition, of its block and of what stands for the
other branches. -/
theorem Branch.parts_of_conditional {condition : Expression} {body : List Statement}
    {otherwise : Value}
    (hfits : (Node.conditional condition.toNode (.block (Statement.toValues body))
      otherwise).toValue.Fits options) :
    (Branch.mk condition body).Fits options ∧ otherwise.Fits options := by
  simp only [Node.conditional, Value.Fits.toValue_iff, Value.Fits.named_cons_iff] at hfits
  exact ⟨⟨hfits.2.1, Statement.fits_of_block hfits.2.2.1⟩, hfits.2.2.2.1⟩

/-- Branches that fit together with what is behind them. -/
theorem Branch.parts_of_toValue {branches : List Branch} {otherwise : Value}
    (hfits : (Branch.toValue branches otherwise).Fits options) :
    (∀ branch ∈ branches, branch.Fits options) ∧ otherwise.Fits options := by
  induction branches with
  | nil => exact ⟨List.forall_mem_nil _, hfits⟩
  | cons first rest ih =>
    obtain ⟨condition, body⟩ := first
    obtain ⟨hfirst, hbehind⟩ := Branch.parts_of_conditional hfits
    obtain ⟨hrest, hotherwise⟩ := ih hbehind
    exact ⟨List.forall_mem_cons.mpr ⟨hfirst, hrest⟩, hotherwise⟩

/-- A row of methods fits if each of them does. -/
theorem Function.fits_toValues_iff (methods : List Function) :
    Value.Fits options (.list (Function.toValues methods)) ↔
      ∀ item ∈ methods, item.Fits options .method := by
  induction methods with
  | nil => simp [Function.toValues]
  | cons first rest ih => simp [Function.toValues, ih, Function.Fits]

/-- A callable that has to state its return type does, where it fits; so do the statements of its
block. -/
theorem Function.Fits.parts {tag : Tag} {stated : Bool} {name : String}
    {parameters : List Parameter} {returnType : Option TypeExpr} {body : List Statement}
    (htag : Shape.ofTag options tag = Shape.callable stated)
    (hfits : (Function.mk name parameters returnType body).Fits options tag) :
    (stated = true → returnType ≠ none) ∧ ∀ statement ∈ body, statement.Fits options := by
  simp only [Function.Fits, Function.toNode, Value.Fits.toValue_iff, Value.Fits.named_cons_iff,
    htag, Shape.callable, Shape.record_named_cons, Bool.and_eq_true] at hfits
  obtain ⟨⟨-, -, htype, -⟩, -, -, -, hbody, -⟩ := hfits
  refine ⟨?_, Statement.fits_of_block hbody⟩
  rintro rfl rfl
  cases htype

namespace Statement.Fits

variable {binding : Binding} {name : String} {type : Option TypeExpr} {value : Expression}
  {body : List Statement} {first : Branch} {others : List Branch}
  {otherwise : Option (List Statement)}

/-- The value of a declaration that fits fits. -/
theorem value_of_declaration (hfits : (declaration binding name type value).Fits options) :
    value.Fits options := by
  simp only [Statement.Fits, toNode, Value.Fits.toValue_iff, Value.Fits.named_cons_iff] at hfits
  exact hfits.2.2.2.2.1

/-- So do the branches of a conditional, and what its `else` opens. -/
theorem parts_of_conditional (hfits : (conditional first others otherwise).Fits options) :
    first.Fits options ∧ (∀ branch ∈ others, branch.Fits options) ∧
      ∀ body ∈ otherwise, ∀ statement ∈ body, statement.Fits options := by
  obtain ⟨condition, block⟩ := first
  obtain ⟨hfirst, hbehind⟩ := Branch.parts_of_conditional hfits
  obtain ⟨hothers, hotherwise⟩ := Branch.parts_of_toValue hbehind
  refine ⟨hfirst, hothers, ?_⟩
  rintro body ⟨⟩
  exact fits_of_block hotherwise

/-- So do the condition and the body of a loop. -/
theorem parts_of_whileLoop (hfits : (whileLoop value body).Fits options) :
    value.Fits options ∧ ∀ statement ∈ body, statement.Fits options := by
  simp only [Statement.Fits, toNode, Value.Fits.toValue_iff, Value.Fits.named_cons_iff] at hfits
  exact ⟨hfits.2.1, fits_of_block hfits.2.2.1⟩

/-- So do the value and the body of a counted loop. -/
theorem parts_of_forLoop (hfits : (forLoop binding name value body).Fits options) :
    value.Fits options ∧ ∀ statement ∈ body, statement.Fits options := by
  simp only [Statement.Fits, toNode, Value.Fits.toValue_iff, Value.Fits.named_cons_iff] at hfits
  exact ⟨hfits.2.2.2.1, fits_of_block hfits.2.2.2.2.1⟩

/-- So does a value that is returned. -/
theorem value_of_returnValue (hfits : (returnValue (some value)).Fits options) :
    value.Fits options := by
  simp only [Statement.Fits, toNode, Value.Fits.toValue_iff] at hfits
  exact hfits.2

/-- So does an expression that is a statement. -/
theorem value_of_expression (hfits : (expression value).Fits options) : value.Fits options := by
  simp only [Statement.Fits, toNode, Value.Fits.toValue_iff] at hfits
  exact hfits.2

/-- So do the methods of an `impl`. -/
theorem methods_of_impl {methods : List Function} (hfits : (impl name methods).Fits options) :
    ∀ item ∈ methods, item.Fits options .method := by
  simp only [Statement.Fits, toNode, Value.Fits.toValue_iff, Value.Fits.named_cons_iff,
    Function.fits_toValues_iff] at hfits
  exact hfits.2.2.1

end Statement.Fits

end Parts

namespace InsideTransfers

variable {source target : Options} {inside other : Option Layer}
  (hinside : InsideTransfers target inside other)
include hinside

/-- A declaration transfers with its value. -/
theorem declaration (binding : Binding) :
    Transfers (Statement.Fits target) (Parser.declaration inside binding)
      (Parser.declaration other binding) := by
  unfold Parser.declaration
  rw [hinside.annotation]
  refine .behind _ fun name => .behind _ fun type => .behind _ fun _ => .either _ ?_ ?_
  · refine hinside.functionValue.bind (fun value => ?_) fun _ => .same _ _
    exact atEnd_silent.either (.pure Statement.Fits.value_of_declaration)
      (terminator_silent.bind fun _ => .pure Statement.Fits.value_of_declaration)
  · exact (hinside.expression true).closing _ fun _ => Statement.Fits.value_of_declaration

/-- A condition and its block, of which something is made. -/
theorem guarded {α : Type} {make : Expression → List Statement → α} {accepted : α → Prop}
    (hmake : ∀ condition body, accepted (make condition body) →
      condition.Fits target ∧ ∀ statement ∈ body, statement.Fits target) :
    Transfers accepted
      (Parser.expression inside false >>= fun condition =>
        Parser.block inside >>= fun body => pure (make condition body))
      (Parser.expression other false >>= fun condition =>
        Parser.block other >>= fun body => pure (make condition body)) := by
  refine (hinside.expression false).bind (fun condition => ?_) fun condition => ?_
  · exact (Yields.any _).returning fun body _ _ haccepted => (hmake condition body haccepted).1
  · exact hinside.block.returning fun body haccepted => (hmake condition body haccepted).2

/-- A branch transfers with its condition and its body. -/
theorem branch :
    Transfers (Branch.Fits target) (Parser.branch inside) (Parser.branch other) :=
  hinside.guarded fun _ _ => id

/-- The further branches of a conditional statement and the block behind them. -/
theorem branches : Transfers
    (fun others : List Branch × Option (List Statement) => (∀ branch ∈ others.1, branch.Fits target) ∧
      ∀ body ∈ others.2, ∀ statement ∈ body, statement.Fits target)
    (repeating (nextBranch inside) ([], none)) (repeating (nextBranch other) ([], none)) := by
  have hheld {others : List Branch × Option (List Statement)} {next : Branch}
      (hmeets : ∀ branch ∈ next :: others.1, branch.Fits target) :
      ∀ branch ∈ others.1, branch.Fits target := forall_mem_of_cons hmeets
  refine .repeating (fun others => ∀ branch ∈ others.1, branch.Fits target)
    (fun others => ?_) (fun others => ?_) _
  · unfold nextBranch
    refine (nextIsWord_silent _).either (advance_silent.bind fun _ => ?_) (.pure And.left)
    refine (nextIsWord_silent _).either (advance_silent.bind fun _ => ?_) ?_
    · exact (Yields.any _).returning fun _ _ _ => hheld
    · exact (Yields.any _).returning fun _ _ _ => And.left
  · unfold nextBranch
    refine .either _ (.behind _ fun _ => .either _ (.behind _ fun _ => ?_) ?_) (.same _ _)
    · exact hinside.branch.returning fun next hmeets => (List.forall_mem_cons.mp hmeets).1
    · exact hinside.block.returning fun body hmeets => hmeets.2 body rfl

/-- A conditional transfers with its branches. -/
theorem conditional : Transfers (Statement.Fits target) (Parser.conditional inside)
    (Parser.conditional other) := by
  refine hinside.branch.bind (fun first => ?_) fun first => ?_
  · exact (Yields.any _).returning fun _ _ _ hfits =>
      (Statement.Fits.parts_of_conditional hfits).1
  · refine hinside.branches.returning fun others hfits => ?_
    obtain ⟨-, hothers, hotherwise⟩ := Statement.Fits.parts_of_conditional hfits
    exact ⟨forall_mem_of_reverse hothers, hotherwise⟩

/-- A loop transfers with its condition and its body. -/
theorem whileLoop : Transfers (Statement.Fits target) (Parser.whileLoop inside)
    (Parser.whileLoop other) :=
  hinside.guarded fun _ _ => Statement.Fits.parts_of_whileLoop

/-- A counted loop transfers with its value and its body. -/
theorem forLoop : Transfers (Statement.Fits target) (Parser.forLoop inside)
    (Parser.forLoop other) := by
  refine .behind binding fun _ => .behind _ fun name => .behind _ fun _ => ?_
  exact hinside.guarded fun value body => Statement.Fits.parts_of_forLoop

/-- A `return` transfers with its value. -/
theorem returnValue : Transfers (Statement.Fits target) (Parser.returnValue inside)
    (Parser.returnValue other) := by
  refine .either (nextIsMark [";"]) (.same _ _) ?_
  exact (hinside.expression true).closing _ fun value => Statement.Fits.value_of_returnValue

/-- A struct is the same under all options. -/
theorem struct : Parser.struct inside = Parser.struct other := by
  unfold Parser.struct structField
  rw [hinside.type]

/-- So are parameters. -/
theorem parameters : Parser.parameters inside = Parser.parameters other := by
  unfold Parser.parameters parameter
  rw [hinside.annotation]

/-- A return type that is stated is read whether it has to be or not, and none is missing where it
has to be. -/
theorem returnType (stated required : Bool) :
    Transfers (fun type => required = true → type ≠ none) (Parser.returnType inside stated)
      (Parser.returnType other required) := by
  unfold Parser.returnType
  rw [hinside.type]
  refine .either _ (.same _ _) ?_
  intro unread type rest hdone hrequired
  cases stated with
  | true => cases hdone
  | false =>
    cases required with
    | true =>
      cases hdone
      exact absurd rfl (hrequired rfl)
    | false => exact hdone

/-- What can be called transfers to the same with another demand for its return type. -/
theorem callable (tag : Tag) {required : Bool}
    (htag : Shape.ofTag target tag = Shape.callable required) (expected : Expected)
    (stated : Bool) :
    Transfers (Function.Fits target tag) (Parser.callable inside expected stated)
      (Parser.callable other expected required) := by
  unfold Parser.callable
  rw [hinside.parameters]
  refine .behind _ fun name => .behind _ fun parameters => ?_
  refine (hinside.returnType stated required).bind (fun type => ?_) fun type => ?_
  · exact (Yields.any _).returning fun _ _ _ hfits => (hfits.parts htag).1
  · exact hinside.block.returning fun _ hfits => (hfits.parts htag).2

/-- A function transfers, whether or not its return type has to be stated. -/
theorem function : Transfers (Statement.Fits target) (Parser.function source inside)
    (Parser.function target other) :=
  (hinside.callable .function rfl _ _).returning fun _ => id

/-- So does a method. -/
theorem method : Transfers (Function.Fits target .method) (Parser.method source inside)
    (Parser.method target other) := by
  refine .either (nextIsWord ["fn"]) ?_ (hinside.callable .method rfl _ _)
  exact .behind advance fun _ => hinside.callable .method rfl _ _

/-- An `impl` transfers with its methods. -/
theorem impl : Transfers (Statement.Fits target) (Parser.impl source inside)
    (Parser.impl target other) := by
  refine .behind _ fun name => .behind _ fun _ => ?_
  refine .closing (.gathering (fun methods => ?_) (fun methods => ?_) []) _
    fun methods hfits => forall_mem_of_reverse (Statement.Fits.methods_of_impl hfits)
  · exact (nextIsMark_silent _).either (Requires.finish methods)
      (atEnd_silent.either (Requires.finish methods) (Requires.again _ methods))
  · exact .either _ (.same _ _) (.either _ (.same _ _) (hinside.method.again methods))

/-- An expression transfers as a statement. -/
theorem expressionStatement : Transfers (Statement.Fits target)
    (Parser.expressionStatement inside) (Parser.expressionStatement other) :=
  (hinside.expression true).closing _ fun _ => Statement.Fits.value_of_expression

/-- The same words begin statements under all options. -/
theorem behindWord (word : String) :
    Option.Rel (Transfers (Statement.Fits target)) (Parser.behindWord source inside word)
      (Parser.behindWord target other word) := by
  unfold Parser.behindWord
  split
  · exact .some (hinside.declaration .variable)
  · exact .some (hinside.declaration .constant)
  · exact .some hinside.conditional
  · exact .some hinside.whileLoop
  · exact .some hinside.forLoop
  · exact .some (.same _ _)
  · exact .some (.same _ _)
  · exact .some hinside.returnValue
  · rw [hinside.struct]
    exact .some (.same _ _)
  · exact .some hinside.impl
  · exact .some hinside.function
  · exact .none

/-- So every statement transfers. -/
theorem statement : Transfers (Statement.Fits target) (Parser.statement source inside)
    (Parser.statement target other) := by
  refine .behind _ fun next => ?_
  cases next with
  | none => exact hinside.expressionStatement
  | some lexeme =>
    have hword : Option.Rel (Transfers (Statement.Fits target))
        (if lexeme.isWord then Parser.behindWord source inside lexeme.text else none)
        (if lexeme.isWord then Parser.behindWord target other lexeme.text else none) := by
      split
      · exact hinside.behindWord lexeme.text
      · exact .none
    dsimp only
    revert hword
    generalize (if lexeme.isWord then Parser.behindWord source inside lexeme.text else none) = one
    generalize (if lexeme.isWord then Parser.behindWord target other lexeme.text else none) = two
    rintro (hparser | _)
    · exact .behind _ fun _ => hparser
    · exact hinside.expressionStatement

end InsideTransfers

/-- Every layer transfers to the layer under other options, from the innermost one outwards. -/
theorem layerInside_transfers (source target : Options) (levels : Nat) :
    InsideTransfers target (layerInside source levels) (layerInside target levels) := by
  induction levels with
  | zero => exact .innermost
  | succ levels ih => exact .around ⟨ih.type, ih.expression, ih.operand, ih.statement⟩

/-- A program without a report is read in the same way under other options if it fits their
schema. -/
theorem Parser.program_transfers (source target : Options) :
    Transfers (fun program => ∀ statement ∈ program, statement.Fits target)
      (Parser.program source) (Parser.program target) :=
  (layerInside_transfers source target maxNesting).statement.statements []

end BraceLang
