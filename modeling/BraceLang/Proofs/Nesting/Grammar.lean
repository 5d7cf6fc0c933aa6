import BraceLang.Proofs.Construction.Statements
import BraceLang.Proofs.Nesting.Gathering

/-!
# Programs are composed by their parsers

Each parser gathers what is composed of given lexemes on the levels that are left to it, if the
parsers of the layer inside it do so on one level less. The levels of types are known from how types
are built.
-/

namespace BraceLang

open BraceLang.Parser

variable {α : Type} {given : Lexeme → Prop} {options : Options} {levels : Nat}
  {inside : Option Layer}

/-- A layer whose parsers gather what is composed where so many levels may be opened. -/
structure Layer.Composes (given : Lexeme → Prop) (levels : Nat) (layer : Layer) : Prop where
  expression (literals : Bool) :
    (layer.expression literals).Gathers given
      (Expression.Composed given levels Expression.topRank)
  operand (literals : Bool) :
    (layer.operand literals).Gathers given (Expression.Composed given levels 0)
  statement : layer.statement.Gathers given (Statement.Composed given levels)

/-- What is inside a construct where some levels may still be opened. -/
structure InsideComposes (given : Lexeme → Prop) (options : Options) (levels : Nat)
    (inside : Option Layer) : Prop where
  outlines : Nonempty (InsideOutlines inside levels)
  builds : InsideBuilds options levels inside
  composes : ∀ layer ∈ inside, ∀ left, levels = left + 1 → layer.Composes given left

namespace InsideComposes

variable (hinside : InsideComposes given options levels inside)
include hinside

/-- Where something is nested there is a level left for it. -/
theorem nested {parser : Layer → Parser α} {condition : α → Prop}
    (hparser : ∀ layer ∈ inside, ∀ left, levels = left + 1 → layer.Composes given left →
      (parser layer).Gathers given condition) :
    (BraceLang.nested inside parser).Gathers given condition := by
  obtain ⟨-, hbuilds, hcomposes⟩ := hinside
  cases hbuilds with
  | innermost =>
    exact fun unread hgiven lexeme hmem => hgiven lexeme ((behindGroup_suffix unread).subset hmem)
  | around hlayer => exact hparser _ rfl _ rfl (hcomposes _ rfl _ rfl)

section Expressions

/-- Type arguments are on the levels that they take. -/
theorem typeArguments : (Parser.typeArguments inside).Gathers given fun arguments =>
    TypeExpr.argumentLevels arguments ≤ levels := by
  obtain ⟨outlines⟩ := hinside.outlines
  exact .of_yields (outlines.typeArguments : Outline ⟨false, levels, true⟩ none _).runs
    (hinside.builds.typeArguments.mono fun _ _ harguments => harguments.1)

/-- A type is on the levels that it takes. -/
theorem type : (Parser.type inside).Gathers given fun type => type.levels ≤ levels := by
  obtain ⟨outlines⟩ := hinside.outlines
  exact .of_yields (outlines.type : Outline ⟨false, levels, true⟩ none _).runs
    (hinside.builds.type.mono fun _ _ htype => htype.1)

/-- So is a type behind a colon. -/
theorem annotation : (Parser.annotation inside).Gathers given fun type =>
    TypeExpr.statedLevels type ≤ levels := by
  obtain ⟨outlines⟩ := hinside.outlines
  exact .of_yields (outlines.annotation : Outline ⟨false, levels, true⟩ none _).runs
    (hinside.builds.stated.mono fun _ _ htype => htype.1)

/-- A block. -/
theorem block : (Parser.block inside).Gathers given (Statement.BlockComposed given levels) := by
  unfold Parser.block
  refine .closing (hinside.nested fun layer _ left hlevels hlayer => ?_) (expectMark_runs _ _)
    fun body hbody => hbody
  subst hlevels
  refine .behind (expectMark_runs _ _) fun _ => ?_
  exact (Gathers.statements hlayer.statement .error ["\x7d"]).mono fun body hbody => .mk hbody

/-- The arguments of a call, which are one level further in. -/
theorem arguments : (Parser.arguments inside).Gathers given fun items =>
    ∃ left, levels = left + 1 ∧
      ∀ item ∈ items, Expression.Composed given left Expression.topRank item := by
  unfold Parser.arguments
  refine hinside.nested fun layer _ left hlevels hlayer => .behind advance_runs fun _ => ?_
  exact .closing (.listed (hlayer.expression true) ")") (expectMark_runs _ _)
    fun items hitems => ⟨left, hlevels, hitems⟩

/-- A function value. -/
theorem functionValue :
    (Parser.functionValue inside).Gathers given (Expression.Composed given levels 0) := by
  unfold Parser.functionValue
  refine .behind advance_runs fun _ => .behind advance_runs fun _ =>
    .behind (expectMark_runs _ _) fun _ => ?_
  exact hinside.type.bind fun type htype =>
    hinside.block.returning fun body hbody => .function htype hbody

/-- An expression in parentheses. -/
theorem group : (Parser.group inside).Gathers given (Expression.Composed given levels 0) := by
  unfold Parser.group
  refine hinside.nested fun layer _ left hlevels hlayer => .behind advance_runs fun _ => ?_
  subst hlevels
  exact .closing (hlayer.expression true) (expectMark_runs _ _) fun value hvalue => .group hvalue

/-- An array. -/
theorem array : (Parser.array inside).Gathers given (Expression.Composed given levels 0) := by
  unfold Parser.array
  refine hinside.nested fun layer _ left hlevels hlayer => .behind advance_runs fun _ => ?_
  subst hlevels
  exact .closing (.listed (hlayer.expression true) "]") (expectMark_runs _ _)
    fun items hitems => .array hitems

/-- A unary operation. -/
theorem unary (literals : Bool) (operator : UnaryOperator) :
    (Parser.unary inside literals operator).Gathers given (Expression.Composed given levels 0) := by
  unfold Parser.unary
  refine hinside.nested fun layer _ left hlevels hlayer => .behind advance_runs fun _ => ?_
  subst hlevels
  exact (hlayer.operand literals).returning fun value hvalue => .unary hvalue

omit hinside in
/-- A field of a struct literal, which is named by an identifier. -/
theorem literalField {layer : Layer} (hlayer : layer.Composes given levels) (struct : String)
    (others : List (String × Expression)) :
    (Parser.literalField layer struct others).Gathers given fun field =>
      given ⟨.identifier, field.1⟩ ∧
        Expression.Composed given levels Expression.topRank field.2 := by
  unfold Parser.literalField
  refine .look (.reject _) fun lexeme hlexeme => ?_
  dsimp only
  split
  · next hkind =>
    have hname : given ⟨.identifier, lexeme.text⟩ := by
      rw [← hkind]
      exact hlexeme
    split
    · exact .of_yields (rejectPassing_runs _) fun _ => trivial
    · refine .behind advance_runs fun _ => .either (accept_runs _) ?_ (.pure ⟨hname, ?_⟩)
      · exact (hlayer.expression true).returning fun value hvalue => ⟨hname, hvalue⟩
      · exact (Expression.Composed.name (Nat.zero_le levels)).of_rank_le (Nat.zero_le _)
  · exact .reject _

/-- A struct literal. -/
theorem structLiteral (name : String) :
    (Parser.structLiteral inside name).Gathers given (Expression.Composed given levels 0) := by
  unfold Parser.structLiteral
  refine hinside.nested fun layer _ left hlevels hlayer => .behind advance_runs fun _ => ?_
  subst hlevels
  refine .closing (.upTo (literalField hlayer name) [","] "\x7d") (expectMark_runs _ _)
    fun fields hfields => ?_
  exact .structLiteral (fun field hfield => (hfields field hfield).1)
    fun field hfield => (hfields field hfield).2

/-- A name and the arguments of its call, if there are any. -/
theorem called {name : Name} (hname : TypeExpr.argumentLevels name.typeArguments ≤ levels) :
    (Parser.called inside name).Gathers given (Expression.Composed given levels 0) := by
  unfold Parser.called
  refine .either (nextIsMark_runs _) (hinside.arguments.returning ?_) (.pure (.name hname))
  rintro items ⟨left, rfl, hitems⟩
  exact .call hname hitems

/-- A name with what stands behind it. -/
theorem named (literals : Bool) (name : String) :
    (Parser.named inside literals name).Gathers given (Expression.Composed given levels 0) := by
  unfold Parser.named
  refine .behind (nextIsMark_runs _) fun brace => ?_
  split
  · exact hinside.structLiteral name
  · refine .behind nextAreTypeArguments_runs fun generic => ?_
    split
    · refine .behind advance_runs fun _ => ?_
      exact hinside.typeArguments.bind fun arguments harguments => hinside.called harguments
    · exact hinside.called (Nat.zero_le levels)

omit hinside in
/-- A lexeme that begins no expression is a complaint. -/
theorem noExpression :
    Parser.noExpression.Gathers given (Expression.Composed given levels 0) :=
  .of_yields (InsideOutlines.noExpression : Outline ⟨true, 0, true⟩ none _).runs fun unread =>
    .error (.unexpected unread.head? .expression)

/-- An expression that begins with a mark. -/
theorem marked (literals : Bool) (mark : String) :
    (Parser.marked inside literals mark).Gathers given (Expression.Composed given levels 0) := by
  unfold Parser.marked
  split
  · refine .behind peekSecond_runs fun second => ?_
    split
    · exact hinside.functionValue
    · exact hinside.group
  · split
    · exact hinside.array
    · split
      · exact hinside.unary literals _
      · exact noExpression

/-- A primary expression: a number is what a number lexeme says. -/
theorem primary (literals : Bool) :
    (Parser.primary inside literals).Gathers given (Expression.Composed given levels 0) := by
  unfold Parser.primary
  refine .look noExpression fun lexeme hlexeme => ?_
  obtain ⟨kind, text⟩ := lexeme
  cases kind with
  | number => exact (Gathers.numeral text).returning fun value hvalue => .number hlexeme hvalue
  | string => exact .behind advance_runs fun _ => .pure (.string text)
  | symbol | operator => exact hinside.marked literals text
  | endOfInput => exact noExpression
  | keyword | identifier =>
    dsimp only
    split
    · exact .behind advance_runs fun _ => .pure (.boolean _)
    · split
      · exact .behind advance_runs fun _ => hinside.named literals text
      · exact noExpression

/-- An operand: accesses keep what they extend. -/
theorem operand (literals : Bool) :
    (Parser.operand inside literals).Gathers given (Expression.Composed given levels 0) := by
  unfold Parser.operand
  refine (hinside.primary literals).bind fun first hfirst => ?_
  refine .repeating (Expression.Composed given levels 0) (fun scope hscope => ?_) hfirst
  unfold nextAccess
  refine .either (accept_runs _) (.behind (identifier_runs _) fun name => ?_) (.pure hscope)
  refine .either (nextIsMark_runs _) (hinside.arguments.returning ?_) (.pure (.member hscope))
  rintro items ⟨left, rfl, hitems⟩
  exact .memberCall hscope hitems

/-- A row of operands with binary operators between them: the rank is the number of precedences. -/
theorem binary (literals : Bool) (rank : Nat) :
    (Parser.binary (Parser.operand inside literals) rank).Gathers given
      (Expression.Composed given levels rank) := by
  induction rank with
  | zero => exact hinside.operand literals
  | succ rank ih =>
    unfold Parser.binary
    refine ih.bind fun first hfirst => ?_
    refine .repeating (Expression.Composed given levels (rank + 1)) (fun left hleft => ?_)
      (.single hfirst)
    unfold nextOperand
    refine .behind (nextOperator_runs _) fun operator => ?_
    cases operator with
    | none => exact .pure hleft
    | some operator =>
      exact .behind advance_runs fun _ => ih.returning fun right hright => .binary hleft hright

/-- An expression. -/
theorem expression (literals : Bool) :
    (Parser.expression inside literals).Gathers given
      (Expression.Composed given levels Expression.topRank) :=
  hinside.binary literals Expression.topRank

end Expressions

section Statements

omit hinside in
/-- A statement that is nothing but its word. -/
theorem closed {statement : Statement} (hstatement : Statement.Composed given levels statement) :
    (Parser.closed statement).Gathers given (Statement.Composed given levels) :=
  .behind (expectMark_runs _ _) fun _ => .pure hstatement

/-- A declaration. -/
theorem declaration (binding : Binding) :
    (Parser.declaration inside binding).Gathers given (Statement.Composed given levels) := by
  unfold Parser.declaration
  refine .behind (identifier_runs _) fun name => hinside.annotation.bind fun type htype => ?_
  refine .behind (expectMark_runs _ _) fun _ => .either nextIsFunctionValue_runs ?_ ?_
  · refine hinside.functionValue.bind fun value hvalue => ?_
    have hdeclaration : Statement.Composed given levels (.declaration binding name type value) :=
      .declaration htype (hvalue.of_rank_le (Nat.zero_le _))
    exact .either atEnd_runs (.pure hdeclaration)
      (.behind (expectMark_runs _ _) fun _ => .pure hdeclaration)
  · exact .closing (hinside.expression true) (expectMark_runs _ _)
      fun value hvalue => .declaration htype hvalue

/-- A condition and its block. -/
theorem branch : (Parser.branch inside).Gathers given (Branch.Composed given levels) :=
  (hinside.expression false).bind fun _ hcondition =>
    hinside.block.returning fun _ hbody => .mk hcondition hbody

/-- A conditional statement: what is held is the further branches. -/
theorem conditional :
    (Parser.conditional inside).Gathers given (Statement.Composed given levels) := by
  unfold Parser.conditional
  refine hinside.branch.bind fun first hfirst => ?_
  have hrounds : (Parser.repeating (nextBranch inside) ([], none)).Gathers given fun others =>
      (∀ branch ∈ others.1, Branch.Composed given levels branch) ∧
        ∀ body ∈ others.2, Statement.BlockComposed given levels body := by
    refine .repeating (fun others => ∀ branch ∈ others.1, Branch.Composed given levels branch)
      (fun others hothers => ?_) (List.forall_mem_nil _)
    unfold nextBranch
    refine .either (nextIsWord_runs _) (.behind advance_runs fun _ => ?_)
      (.pure ⟨hothers, by simp⟩)
    refine .either (nextIsWord_runs _) (.behind advance_runs fun _ => ?_) ?_
    · exact hinside.branch.returning fun next hnext => List.forall_mem_cons.mpr ⟨hnext, hothers⟩
    · exact hinside.block.returning fun body hbody => ⟨hothers, by simpa using hbody⟩
  refine hrounds.bind fun others hothers => .pure ?_
  exact .conditional hfirst (fun branch hbranch => hothers.1 branch (List.mem_reverse.mp hbranch))
    hothers.2

/-- A loop over a condition. -/
theorem whileLoop :
    (Parser.whileLoop inside).Gathers given (Statement.Composed given levels) :=
  (hinside.expression false).bind fun _ hcondition =>
    hinside.block.returning fun _ hbody => .whileLoop hcondition hbody

/-- A loop over the items of something. -/
theorem forLoop : (Parser.forLoop inside).Gathers given (Statement.Composed given levels) := by
  have hbinding : binding.Runs :=
    (nextIsWord_runs _).either (advance_runs.bind fun _ => .pure _) <|
      (nextIsWord_runs _).either (advance_runs.bind fun _ => .pure _) (reject_runs _)
  unfold Parser.forLoop
  refine .behind hbinding fun binding => .behind (identifier_runs _) fun name => ?_
  refine .behind (expectWord_runs _ _) fun _ => ?_
  exact (hinside.expression false).bind fun _ hiterable =>
    hinside.block.returning fun _ hbody => .forLoop hiterable hbody

/-- A return. -/
theorem returnValue :
    (Parser.returnValue inside).Gathers given (Statement.Composed given levels) := by
  unfold Parser.returnValue
  refine .either (nextIsMark_runs _) (closed .returnNothing) ?_
  exact .closing (hinside.expression true) (expectMark_runs _ _)
    fun value hvalue => .returnValue hvalue

/-- A struct. -/
theorem struct : (Parser.struct inside).Gathers given (Statement.Composed given levels) := by
  have hfield : (Parser.structField inside).Gathers given fun field =>
      field.type.levels ≤ levels :=
    .behind (identifier_runs _) fun _ => .behind (expectMark_runs _ _) fun _ =>
      hinside.type.returning fun _ htype => htype
  unfold Parser.struct
  refine .behind (identifier_runs _) fun name => .behind (expectMark_runs _ _) fun _ => ?_
  exact .closing (.upTo (fun _ => hfield) [",", ";"] "\x7d") (expectMark_runs _ _)
    fun fields hfields => .struct hfields

/-- A list of parameters in parentheses. -/
theorem parameters : (Parser.parameters inside).Gathers given fun parameters =>
    ∀ parameter ∈ parameters, TypeExpr.statedLevels parameter.type ≤ levels := by
  have hparameter : (Parser.parameter inside).Gathers given fun parameter =>
      TypeExpr.statedLevels parameter.type ≤ levels :=
    .behind (identifier_runs _) fun _ => hinside.annotation.returning fun _ htype => htype
  unfold Parser.parameters
  refine .behind (expectMark_runs _ _) fun _ => ?_
  exact .closing (.listed hparameter ")") (expectMark_runs _ _) fun items hitems => hitems

/-- A function from its name on. -/
theorem callable (expected : Expected) (stated : Bool) :
    (Parser.callable inside expected stated).Gathers given (Function.Composed given levels) := by
  have hreturn : (Parser.returnType inside stated).Gathers given fun type =>
      TypeExpr.statedLevels type ≤ levels := by
    obtain ⟨outlines⟩ := hinside.outlines
    exact .of_yields (outlines.returnType stated : Outline ⟨false, levels, true⟩ none _).runs
      ((hinside.builds.returnType stated).mono fun _ _ htype => htype.1.1)
  unfold Parser.callable
  refine .behind (identifier_runs _) fun name => ?_
  refine hinside.parameters.bind fun parameters hparameters => hreturn.bind fun type htype => ?_
  exact hinside.block.returning fun body hbody => .mk hparameters htype hbody

/-- The methods of a struct. -/
theorem impl : (Parser.impl options inside).Gathers given (Statement.Composed given levels) := by
  have hmethod : (Parser.method options inside).Gathers given (Function.Composed given levels) :=
    .either (nextIsWord_runs _) (.behind advance_runs fun _ => hinside.callable _ _)
      (hinside.callable _ _)
  have hrounds : (Parser.repeating (nextMethod options inside) []).Gathers given fun methods =>
      ∀ method ∈ methods, Function.Composed given levels method := by
    refine .repeating (fun methods => ∀ method ∈ methods, Function.Composed given levels method)
      (fun methods hmethods => ?_) (List.forall_mem_nil _)
    unfold nextMethod
    refine .either (nextIsMark_runs _) (.pure hmethods) (.either atEnd_runs (.pure hmethods) ?_)
    exact hmethod.returning fun item hitem => List.forall_mem_cons.mpr ⟨hitem, hmethods⟩
  unfold Parser.impl
  refine .behind (identifier_runs _) fun name => .behind (expectMark_runs _ _) fun _ => ?_
  exact .closing hrounds (expectMark_runs _ _) fun methods hmethods =>
    .impl fun method hmethod => hmethods method (List.mem_reverse.mp hmethod)

/-- An expression that stands as a statement. -/
theorem expressionStatement :
    (Parser.expressionStatement inside).Gathers given (Statement.Composed given levels) :=
  .closing (hinside.expression true) (expectMark_runs _ _) fun _ hvalue => .expression hvalue

/-- What follows a word that begins a statement. -/
theorem behindWord {word : String} {parser : Parser Statement}
    (hword : Parser.behindWord options inside word = some parser) :
    parser.Gathers given (Statement.Composed given levels) := by
  cases hword using Parser.behindWord_cases with
  | declaration binding => exact hinside.declaration binding
  | conditional => exact hinside.conditional
  | whileLoop => exact hinside.whileLoop
  | forLoop => exact hinside.forLoop
  | breakLoop => exact closed .breakLoop
  | continueLoop => exact closed .continueLoop
  | returnValue => exact hinside.returnValue
  | struct => exact hinside.struct
  | impl => exact hinside.impl
  | function => exact (hinside.callable _ _).returning fun function hfunction => .function hfunction

/-- A statement. -/
theorem statement :
    (Parser.statement options inside).Gathers given (Statement.Composed given levels) := by
  unfold Parser.statement
  refine .look hinside.expressionStatement fun lexeme hlexeme => ?_
  dsimp only
  split
  · next parser hparser =>
    split at hparser
    · exact .behind advance_runs fun _ => hinside.behindWord hparser
    · cases hparser
  · exact hinside.expressionStatement

end Statements

end InsideComposes

/-- From the innermost layer outwards, every layer gathers what is composed on the levels that are
left inside it. -/
theorem layerInside_composes (given : Lexeme → Prop) (options : Options) (levels : Nat) :
    InsideComposes given options levels (layerInside options levels) where
  outlines := ⟨insideOutlines options levels⟩
  builds := layerInside_builds options levels
  composes := by
    induction levels with
    | zero => exact fun layer hlayer => nomatch hlayer
    | succ levels ih =>
      rintro layer ⟨⟩ left ⟨⟩
      have hinside : InsideComposes given options levels (layerInside options levels) :=
        ⟨⟨insideOutlines options levels⟩, layerInside_builds options levels, ih⟩
      exact ⟨hinside.expression, hinside.operand, hinside.statement⟩

/-- A program is composed of the lexemes that it is read from, within the limit of nesting. -/
theorem composed_of_program {options : Options} {lexemes rest : List Lexeme}
    {program : List Statement} {reports : List Report}
    (hprogram : Parser.program options lexemes = .done program rest reports) :
    ∀ statement ∈ program, Statement.Composed (· ∈ lexemes) maxNesting statement := by
  have hinside := layerInside_composes (· ∈ lexemes) options maxNesting
  have hreply := Gathers.statements hinside.statement .error [] lexemes fun _ hmem => hmem
  change (Parser.program options lexemes).Gathered _ _ at hreply
  rw [hprogram] at hreply
  exact hreply.1

end BraceLang
