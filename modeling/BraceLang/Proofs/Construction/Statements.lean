import BraceLang.Proofs.Construction.Expressions

/-!
# Programs are built by their parsers

Each statement parser yields statements that are built with its reports, given that the layer
inside it does. From the innermost layer outwards every layer does, and so does the parser for
programs.
-/

namespace BraceLang

open BraceLang.Parser

variable {options : Options} {levels : Nat} {inside : Option Layer}

/-- Branches that are built one by one are built together. -/
theorem Each.branches {items : List Branch} {reports : List Report}
    (hitems : Each (Branch.Built options levels) items reports) :
    Branch.AllBuilt options levels items reports := by
  induction hitems with
  | nil => exact .nil
  | cons hfirst _ ih => exact .cons hfirst ih

/-- Methods that are built one by one are built together. -/
theorem Each.methods {items : List Function} {reports : List Report}
    (hitems : Each (Function.Built options levels options.methodsStateReturn) items reports) :
    Function.AllBuilt options levels items reports := by
  induction hitems with
  | nil => exact .nil
  | cons hfirst _ ih => exact .cons hfirst ih

/-- The end of a statement is silent up to its failure. -/
theorem Parser.terminator_silent : terminator.Silent := expectMark_silent _ _

/-- So is the word of a binding. -/
theorem Parser.binding_silent : binding.Silent := by
  unfold binding
  refine (nextIsWord_silent _).either (advance_silent.bind fun _ => .pure rfl) ?_
  exact (nextIsWord_silent _).either (advance_silent.bind fun _ => .pure rfl) (.reject _)

/-- A statement that is nothing but its word. -/
theorem Parser.Yields.closed {statement : Statement}
    (hstatement : Statement.Built options levels statement []) :
    (Parser.closed statement).Yields (Statement.Built options levels) :=
  terminator_silent.bind fun _ => .pure hstatement

namespace InsideBuilds

variable (hinside : InsideBuilds options levels inside)
include hinside

/-- An expression. -/
theorem expression (literals : Bool) :
    (Parser.expression inside literals).Yields (Expression.Built options levels) :=
  hinside.expressionAbove literals (-1)

/-- A declaration. -/
theorem declaration (binding : Binding) :
    (Parser.declaration inside binding).Yields (Statement.Built options levels) := by
  unfold Parser.declaration
  refine (identifier_silent _).bind fun name => ?_
  refine Finds.bind hinside.stated fun type htype => ?_
  refine (expectMark_silent _ _).bind fun _ => nextIsFunctionValue_silent.either ?_ ?_
  · refine .bind hinside.functionValue fun value reports hvalue => ?_
    have hdeclaration : Statement.Built options levels (.declaration binding name type value)
        (reports ++ []) := by
      rw [List.append_nil]
      exact .declaration htype hvalue
    exact atEnd_silent.either (.pure hdeclaration)
      (terminator_silent.bind fun _ => .pure hdeclaration)
  · exact .closing (hinside.expression true) terminator_silent
      fun value reports hvalue => .declaration htype hvalue

/-- An expression in front of a block. -/
theorem guarded {α : Type} {make : Expression → List Statement → α}
    {condition : α → List Report → Prop}
    (hmake : ∀ left value body earlier later, levels = left + 1 →
      Expression.Built options levels value earlier → Statement.AllBuilt options left body later →
      condition (make value body) (earlier ++ later)) :
    (do
      let value ← Parser.expression inside false
      let body ← Parser.block inside
      return make value body).Yields condition := by
  refine .bind (hinside.expression false) fun value earlier hvalue => ?_
  refine .returning hinside.block fun body later hbody => ?_
  obtain ⟨left, hlevels, hbody⟩ := hbody
  exact hmake left value body earlier later hlevels hvalue hbody

/-- A condition and its block. -/
theorem branch : (Parser.branch inside).Yields (Branch.Built options levels) := by
  unfold Parser.branch
  refine hinside.guarded fun left value body earlier later hlevels hvalue hbody => ?_
  subst hlevels
  exact .mk hvalue hbody

/-- A conditional statement: what is held is the further branches. -/
theorem conditional : (Parser.conditional inside).Yields (Statement.Built options levels) := by
  unfold Parser.conditional
  refine .bind hinside.branch fun first earlier hfirst => ?_
  have hrounds : (Parser.repeating (nextBranch inside) ([], none)).Yields fun others reports =>
      ∃ later last, reports = later ++ last ∧
        Branch.AllBuilt options levels others.1.reverse later ∧
        Statement.OtherwiseBuilt options levels others.2 last := by
    refine .repeating (fun others later =>
      Collected (Branch.Built options levels) [] others.1 later) (fun others later hothers => ?_)
      Collected.nil
    have hbranches := hothers.reverse.branches
    rw [List.append_nil] at hbranches
    unfold nextBranch
    refine (nextIsWord_silent _).either (advance_silent.bind fun _ => ?_)
      (.finish ⟨later, [], (List.append_nil _).symm, hbranches, .none⟩)
    refine (nextIsWord_silent _).either (advance_silent.bind fun _ => ?_) ?_
    · exact .bind hinside.branch fun next reports hnext => .again (hothers.again hnext)
    · refine .returning hinside.block fun body reports hbody => ?_
      obtain ⟨left, rfl, hbody⟩ := hbody
      exact ⟨later, reports, rfl, hbranches, .some hbody⟩
  refine .bind hrounds ?_
  rintro ⟨others, otherwise⟩ _ ⟨later, last, rfl, hbranches, hotherwise⟩
  refine .pure ?_
  rw [List.append_nil]
  exact .conditional hfirst hbranches hotherwise

/-- A loop over a condition. -/
theorem whileLoop : (Parser.whileLoop inside).Yields (Statement.Built options levels) := by
  unfold Parser.whileLoop
  refine hinside.guarded fun left value body earlier later hlevels hvalue hbody => ?_
  subst hlevels
  exact .whileLoop hvalue hbody

/-- A loop over the items of something. -/
theorem forLoop : (Parser.forLoop inside).Yields (Statement.Built options levels) := by
  unfold Parser.forLoop
  refine binding_silent.bind fun binding => (identifier_silent _).bind fun name => ?_
  refine (expectWord_silent _ _).bind fun _ => ?_
  refine hinside.guarded fun left value body earlier later hlevels hvalue hbody => ?_
  subst hlevels
  exact .forLoop hvalue hbody

/-- A return. -/
theorem returnValue : (Parser.returnValue inside).Yields (Statement.Built options levels) := by
  unfold Parser.returnValue
  refine (nextIsMark_silent _).either (terminator_silent.bind fun _ => .pure .returnNothing) ?_
  exact .closing (hinside.expression true) terminator_silent
    fun value reports hvalue => .returnValue hvalue

/-- A field of a struct. -/
theorem structField :
    (Parser.structField inside).Finds fun field => field.type.levels ≤ levels := by
  unfold Parser.structField
  refine (identifier_silent _).bind fun name => (expectMark_silent _ _).bind fun _ => ?_
  exact Finds.bind hinside.type fun type htype => .pure ⟨htype, rfl⟩

/-- A struct. -/
theorem struct : (Parser.struct inside).Yields (Statement.Built options levels) := by
  unfold Parser.struct
  refine (identifier_silent _).bind fun name => (expectMark_silent _ _).bind fun _ => ?_
  have hfields := Yields.upTo (fun _ => True) trivial
    (fun _ _ => hinside.structField.mono fun field reports hfield => ⟨hfield, trivial⟩)
    [",", ";"] "\x7d"
  refine .closing hfields (expectMark_silent _ _) fun fields reports hfields => ?_
  obtain ⟨htypes, rfl⟩ := hfields.1.silent
  exact .struct htypes

/-- A parameter. -/
theorem parameter : (Parser.parameter inside).Finds fun parameter =>
    TypeExpr.statedLevels parameter.type ≤ levels := by
  unfold Parser.parameter
  refine (identifier_silent _).bind fun name => ?_
  exact Finds.bind hinside.stated fun type htype => .pure ⟨htype, rfl⟩

/-- A list of parameters. -/
theorem parameters : (Parser.parameters inside).Finds fun parameters =>
    ∀ parameter ∈ parameters, TypeExpr.statedLevels parameter.type ≤ levels := by
  unfold Parser.parameters
  refine (expectMark_silent _ _).bind fun _ => ?_
  exact .closing (Yields.listed hinside.parameter _) (expectMark_silent _ _)
    fun parameters reports hparameters => hparameters.silent

/-- A return type. -/
theorem returnType (stated : Bool) : (Parser.returnType inside stated).Finds fun type =>
    TypeExpr.statedLevels type ≤ levels ∧ (stated = true → type ≠ none) := by
  unfold Parser.returnType
  refine (accept_silent _).either ?_ ?_
  · exact Finds.bind hinside.type fun type htype =>
      .pure ⟨⟨htype, fun _ => Option.some_ne_none type⟩, rfl⟩
  · split
    · exact .reject _
    · next hstated => exact .pure ⟨⟨Nat.zero_le levels, fun htrue => absurd htrue hstated⟩, rfl⟩

/-- A function from its name on. -/
theorem callable (expected : Expected) (stated : Bool) :
    (Parser.callable inside expected stated).Yields
      (Function.Built options levels stated) := by
  unfold Parser.callable
  refine (identifier_silent _).bind fun name => ?_
  refine Finds.bind hinside.parameters fun parameters hparameters => ?_
  refine Finds.bind (hinside.returnType stated) fun type htype => ?_
  refine .returning hinside.block fun body reports hbody => ?_
  obtain ⟨left, rfl, hbody⟩ := hbody
  exact .mk hparameters htype.1 htype.2 hbody

/-- A function. -/
theorem function :
    (Parser.function options inside).Yields (Statement.Built options levels) := by
  unfold Parser.function
  exact .returning (hinside.callable _ _) fun function reports hfunction => .function hfunction

/-- A method. -/
theorem method : (Parser.method options inside).Yields
    (Function.Built options levels options.methodsStateReturn) := by
  unfold Parser.method
  exact (nextIsWord_silent _).either
    (advance_silent.bind fun _ => hinside.callable _ _) (hinside.callable _ _)

/-- The methods of a struct. -/
theorem impl : (Parser.impl options inside).Yields (Statement.Built options levels) := by
  unfold Parser.impl
  refine (identifier_silent _).bind fun name => (expectMark_silent _ _).bind fun _ => ?_
  have hrounds : (Parser.repeating (nextMethod options inside) []).Yields
      (Collected (Function.Built options levels options.methodsStateReturn) []) := by
    refine .repeating (Collected (Function.Built options levels options.methodsStateReturn) [])
      (fun methods earlier hmethods => ?_) Collected.nil
    unfold nextMethod
    refine (nextIsMark_silent _).either (.finish hmethods)
      (atEnd_silent.either (.finish hmethods) ?_)
    exact .bind hinside.method fun item reports hitem => .again (hmethods.again hitem)
  refine .closing hrounds (expectMark_silent _ _) fun methods reports hmethods => .impl ?_
  exact Each.methods hmethods

/-- An expression that stands as a statement. -/
theorem expressionStatement :
    (Parser.expressionStatement inside).Yields (Statement.Built options levels) := by
  unfold Parser.expressionStatement
  exact .closing (hinside.expression true) terminator_silent
    fun value reports hvalue => .expression hvalue

/-- What follows a word that begins a statement. -/
theorem behindWord {word : String} {parser : Parser Statement}
    (hword : Parser.behindWord options inside word = some parser) :
    parser.Yields (Statement.Built options levels) := by
  cases hword using Parser.behindWord_cases with
  | declaration binding => exact hinside.declaration binding
  | conditional => exact hinside.conditional
  | whileLoop => exact hinside.whileLoop
  | forLoop => exact hinside.forLoop
  | breakLoop => exact .closed .breakLoop
  | continueLoop => exact .closed .continueLoop
  | returnValue => exact hinside.returnValue
  | struct => exact hinside.struct
  | impl => exact hinside.impl
  | function => exact hinside.function

/-- A statement. -/
theorem statement :
    (Parser.statement options inside).Yields (Statement.Built options levels) := by
  unfold Parser.statement
  refine peek_silent.bind fun next => ?_
  cases next with
  | none => exact hinside.expressionStatement
  | some lexeme =>
    dsimp only
    split
    · next parser hparser =>
      split at hparser
      · exact advance_silent.bind fun _ => hinside.behindWord hparser
      · cases hparser
    · exact hinside.expressionStatement

end InsideBuilds

/-- A layer builds as much as what is inside it lets it. -/
theorem Layer.Builds.around (hinside : InsideBuilds options levels inside) :
    (Layer.around options inside).Builds options levels where
  type := hinside.type
  expression := hinside.expression
  operand := hinside.operand
  statement := hinside.statement

/-- What stands inside a construct is built with one level less. -/
theorem layerInside_builds (options : Options) (levels : Nat) :
    InsideBuilds options levels (layerInside options levels) := by
  induction levels with
  | zero => exact .innermost
  | succ levels ih => exact .around (.around ih)

/-- On the outermost level everything is built within the limit of nesting. -/
theorem outermost_builds (options : Options) :
    InsideBuilds options maxNesting (outermost options) :=
  layerInside_builds options maxNesting

/-- Every program that is parsed is built with the reports of its parsing. -/
theorem program_yields_built (options : Options) :
    (Parser.program options).Yields (Statement.AllBuilt options maxNesting) :=
  .statements (outermost_builds options).statement []

end BraceLang
