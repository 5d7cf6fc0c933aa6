import BraceLang.Parser.Program
import BraceLang.Proofs.Construction.Built
import Mathlib.Data.List.Nodup

/-!
# Expressions are built by their parsers

Each expression parser yields expressions that are built with its reports, given that the layer
inside it yields such ones. Where nothing is inside, a nesting construct is not built at all, so a
construct has always one level more than its parts.
-/

namespace BraceLang

open BraceLang.Parser

variable {α : Type} {options : Options} {levels : Nat} {inside : Option Layer}

/-- A layer whose parsers yield what can be built where so many levels may be opened. -/
structure Layer.Builds (options : Options) (levels : Nat) (layer : Layer) : Prop where
  type : layer.type.Finds fun type => type.levels ≤ levels
  expression (literals : Bool) :
    (layer.expression literals).Yields (Expression.Built options levels)
  operand (literals : Bool) : (layer.operand literals).Yields (Expression.Built options levels)
  statement : layer.statement.Yields (Statement.Built options levels)

/-- What is inside a construct where some levels may still be opened. -/
inductive InsideBuilds (options : Options) : Nat → Option Layer → Prop where
  | innermost : InsideBuilds options 0 none
  | around {levels : Nat} {layer : Layer} (hlayer : layer.Builds options levels) :
    InsideBuilds options (levels + 1) (some layer)

/-- Where something is nested there is a level left for it. -/
theorem Parser.Yields.nested {parser : Layer → Parser α} {condition : α → List Report → Prop}
    (hinside : InsideBuilds options levels inside)
    (hparser : ∀ left layer, levels = left + 1 → layer.Builds options left →
      (parser layer).Yields condition) :
    (BraceLang.nested inside parser).Yields condition := by
  cases hinside with
  | innermost => exact fun _ => trivial
  | around hlayer => exact hparser _ _ rfl hlayer

/-- Types of which none opens more levels than there are. -/
theorem TypeExpr.maxLevels_le {types : List TypeExpr}
    (htypes : ∀ type ∈ types, type.levels ≤ levels) :
    TypeExpr.maxLevels types ≤ levels := by
  induction types with
  | nil => exact Nat.zero_le levels
  | cons first rest ih =>
    obtain ⟨hfirst, hrest⟩ := List.forall_mem_cons.mp htypes
    exact Nat.max_le.mpr ⟨hfirst, ih hrest⟩

/-- The arguments of a type open one level together. -/
theorem TypeExpr.argumentLevels_le (types : List TypeExpr) :
    TypeExpr.argumentLevels types ≤ TypeExpr.maxLevels types + 1 := by
  cases types with
  | nil => exact Nat.zero_le _
  | cons first rest => exact Nat.le_refl _

/-- Expressions that are built one by one are built together. -/
theorem Each.expressions {items : List Expression} {reports : List Report}
    (hitems : Each (Expression.Built options levels) items reports) :
    Expression.AllBuilt options levels items reports := by
  induction hitems with
  | nil => exact .nil
  | cons hfirst _ ih => exact .cons hfirst ih

/-- Fields whose values are built one by one are built together. -/
theorem Each.fields {fields : List (String × Expression)} {reports : List Report}
    (hfields : Each (fun field => Expression.Built options levels field.2) fields reports) :
    Expression.FieldsBuilt options levels fields reports := by
  induction hfields with
  | nil => exact .nil
  | cons hfirst _ ih => exact .cons hfirst ih

/-- Statements that are built one by one are built together. -/
theorem Each.statements {items : List Statement} {reports : List Report}
    (hitems : Each (Statement.Built options levels) items reports) :
    Statement.AllBuilt options levels items reports := by
  induction hitems with
  | nil => exact .nil
  | cons hfirst _ ih => exact .cons hfirst ih

/-- A statement that fails is built as the complaint about it. -/
theorem Parser.Yields.recovered {parser : Parser Statement}
    (hparser : parser.Yields (Statement.Built options levels)) :
    (Parser.recovered parser).Yields (Statement.Built options levels) := by
  intro unread
  have hreply := hparser unread
  unfold Parser.recovered
  cases hrun : parser unread with
  | done statement rest reports =>
    rw [hrun] at hreply
    exact hreply
  | failed report rest reports => exact .error reports report
  | stopped halt => trivial

/-- Passing a lexeme changes no value. -/
theorem Parser.Yields.passing {parser : Parser α} {condition : α → List Report → Prop}
    (hparser : parser.Yields condition) : (Parser.passing parser).Yields condition := by
  intro unread
  have hreply := hparser unread
  unfold Parser.passing
  cases hrun : parser unread with
  | done value rest reports =>
    rw [hrun] at hreply
    exact hreply
  | failed | stopped => trivial

/-- Statements up to one of some marks or to the end. -/
theorem Parser.Yields.statements {parser : Parser Statement}
    (hparser : parser.Yields (Statement.Built options levels)) (closing : List String) :
    (Parser.statements parser closing).Yields (Statement.AllBuilt options levels) := by
  unfold Parser.statements
  have hrounds : (Parser.repeating (nextStatement parser closing) []).Yields
      (Collected (Statement.Built options levels) []) := by
    refine .repeating (Collected (Statement.Built options levels) [])
      (fun items earlier hitems => ?_) Collected.nil
    unfold nextStatement
    refine atEnd_silent.either (.finish hitems) ((nextIsMark_silent _).either (.finish hitems) ?_)
    exact .bind hparser.recovered.passing fun statement reports hstatement =>
      .again (hitems.again hstatement)
  exact .bind hrounds fun items later hitems => .pure hitems.reverse.statements

namespace InsideBuilds

variable (hinside : InsideBuilds options levels inside)
include hinside

/-- Type arguments. -/
theorem typeArguments :
    (Parser.typeArguments inside).Finds fun arguments =>
      TypeExpr.argumentLevels arguments ≤ levels := by
  have hnested : (BraceLang.nested inside fun layer => Parser.separated layer.type).Finds
      fun arguments => TypeExpr.argumentLevels arguments ≤ levels := by
    refine .nested hinside fun left layer hlevels hlayer => ?_
    refine (Yields.separated hlayer.type).mono fun arguments reports harguments => ?_
    obtain ⟨htypes, hreports⟩ := harguments.silent
    have hmax := TypeExpr.maxLevels_le htypes
    have htogether := TypeExpr.argumentLevels_le arguments
    exact ⟨by omega, hreports⟩
  unfold Parser.typeArguments
  exact hnested.bind fun arguments harguments =>
    (expectMark_silent _ _).bind fun _ => .pure ⟨harguments, rfl⟩

/-- A type. -/
theorem type : (Parser.type inside).Finds fun type => type.levels ≤ levels := by
  unfold Parser.type
  refine (word_silent _).bind fun name => (accept_silent _).either ?_ (.pure ?_)
  · exact Finds.bind hinside.typeArguments fun arguments harguments => .pure ⟨harguments, rfl⟩
  · exact ⟨Nat.zero_le levels, rfl⟩

/-- A colon and a type, if there is a colon. -/
theorem stated :
    (Parser.annotation inside).Finds fun type => TypeExpr.statedLevels type ≤ levels := by
  unfold Parser.annotation
  refine (accept_silent _).either ?_ (.pure ⟨Nat.zero_le levels, rfl⟩)
  exact Finds.bind hinside.type fun type htype => .pure ⟨htype, rfl⟩

/-- A block, which is one level further in. -/
theorem block :
    (Parser.block inside).Yields fun body reports =>
      ∃ left, levels = left + 1 ∧ Statement.AllBuilt options left body reports := by
  have hnested : (BraceLang.nested inside fun layer => do
      expectMark "\x7b" .blockOpening
      Parser.statements layer.statement ["\x7d"]).Yields fun body reports =>
        ∃ left, levels = left + 1 ∧ Statement.AllBuilt options left body reports := by
    refine .nested hinside fun left layer hlevels hlayer => (expectMark_silent _ _).bind fun _ => ?_
    exact (Yields.statements hlayer.statement _).mono fun body reports hbody =>
      ⟨left, hlevels, hbody⟩
  unfold Parser.block
  exact .closing hnested (expectMark_silent _ _) fun body reports hbody => hbody

/-- The arguments of a call, which are one level further in. -/
theorem arguments :
    (Parser.arguments inside).Yields fun items reports =>
      ∃ left, levels = left + 1 ∧ Expression.AllBuilt options left items reports := by
  unfold Parser.arguments
  refine .nested hinside fun left layer hlevels hlayer => advance_silent.bind fun _ => ?_
  exact .closing (Yields.listed (hlayer.expression true) _) (expectMark_silent _ _)
    fun items reports hitems => ⟨left, hlevels, hitems.expressions⟩

/-- A function value. -/
theorem functionValue :
    (Parser.functionValue inside).Yields (Expression.Built options levels) := by
  unfold Parser.functionValue
  refine advance_silent.bind fun _ => advance_silent.bind fun _ =>
    (expectMark_silent _ _).bind fun _ => ?_
  refine Finds.bind hinside.type fun type htype => ?_
  refine .returning hinside.block fun body reports hbody => ?_
  obtain ⟨left, rfl, hbody⟩ := hbody
  exact .function htype hbody

/-- An expression in parentheses. -/
theorem group : (Parser.group inside).Yields (Expression.Built options levels) := by
  unfold Parser.group
  refine .nested hinside fun left layer hlevels hlayer => advance_silent.bind fun _ => ?_
  subst hlevels
  exact .closing (hlayer.expression true) (expectMark_silent _ _)
    fun value reports hvalue => .group hvalue

/-- An array. -/
theorem array : (Parser.array inside).Yields (Expression.Built options levels) := by
  unfold Parser.array
  refine .nested hinside fun left layer hlevels hlayer => advance_silent.bind fun _ => ?_
  subst hlevels
  exact .closing (Yields.listed (hlayer.expression true) _) (expectMark_silent _ _)
    fun items reports hitems => .array hitems.expressions

/-- A unary operation. -/
theorem unary (literals : Bool) (operator : UnaryOperator) :
    (Parser.unary inside literals operator).Yields (Expression.Built options levels) := by
  unfold Parser.unary
  refine .nested hinside fun left layer hlevels hlayer => advance_silent.bind fun _ => ?_
  subst hlevels
  exact .returning (hlayer.operand literals) fun value reports hvalue => .unary hvalue

end InsideBuilds

/-- A field of a struct literal, which is named unlike those before it. -/
theorem Layer.Builds.literalField {layer : Layer} (hlayer : layer.Builds options levels)
    (struct : String) (given : List (String × Expression)) (hgiven : (given.map Prod.fst).Nodup) :
    (Parser.literalField layer struct given).Yields fun field reports =>
      Expression.Built options levels field.2 reports ∧ ((field :: given).map Prod.fst).Nodup := by
  unfold Parser.literalField
  refine peek_silent.bind fun next => ?_
  cases next with
  | none => exact .reject _
  | some lexeme =>
    dsimp only
    split
    · split
      · exact fun _ => trivial
      · next hnew =>
        have hnames (value : Expression) :
            (((lexeme.text, value) :: given).map Prod.fst).Nodup := by
          refine List.nodup_cons.mpr ⟨fun hmem => hnew ?_, hgiven⟩
          obtain ⟨field, hfield, hname⟩ := List.mem_map.mp hmem
          exact List.any_eq_true.mpr ⟨field, hfield, by simpa using hname⟩
        refine advance_silent.bind fun _ => (accept_silent _).either ?_ (.pure ?_)
        · exact .returning (hlayer.expression true)
            fun value reports hvalue => ⟨hvalue, hnames value⟩
        · exact ⟨.name ⟨Nat.zero_le levels, fun hnone => absurd rfl hnone⟩, hnames _⟩
    · exact .reject _

namespace InsideBuilds

variable (hinside : InsideBuilds options levels inside)
include hinside

/-- A struct literal. -/
theorem structLiteral (name : String) :
    (Parser.structLiteral inside name).Yields (Expression.Built options levels) := by
  unfold Parser.structLiteral
  refine .nested hinside fun left layer hlevels hlayer => advance_silent.bind fun _ => ?_
  subst hlevels
  have hfields := Yields.upTo (fun given => (given.map Prod.fst).Nodup) List.nodup_nil
    (hlayer.literalField name) [","] "\x7d"
  refine .closing hfields (expectMark_silent _ _) fun fields reports hfields => ?_
  have hnames : (fields.map Prod.fst).Nodup := by
    have hreversed := hfields.2
    rwa [List.map_reverse, List.nodup_reverse] at hreversed
  exact .structLiteral hnames hfields.1.fields

/-- A name and the arguments of its call, if there are any. -/
theorem called {name : Name} (hname : name.Built levels) :
    (Parser.called inside name).Yields (Expression.Built options levels) := by
  unfold Parser.called
  refine (nextIsMark_silent _).either ?_ (.pure (.name hname))
  refine .returning hinside.arguments fun items reports hitems => ?_
  obtain ⟨left, rfl, hitems⟩ := hitems
  exact .call hname hitems

/-- A name with what stands behind it. -/
theorem named (literals : Bool) (name : String) :
    (Parser.named inside literals name).Yields (Expression.Built options levels) := by
  unfold Parser.named
  refine (nextIsMark_silent _).bind fun brace => ?_
  split
  · exact hinside.structLiteral name
  · refine nextAreTypeArguments_silent.bind fun generic => ?_
    split
    · next hgeneric =>
      refine advance_silent.bind fun _ => ?_
      refine Finds.bind hinside.typeArguments fun arguments harguments => ?_
      exact hinside.called ⟨harguments, fun _ => (Bool.and_eq_true_iff.mp hgeneric).2⟩
    · exact hinside.called ⟨Nat.zero_le levels, fun hnone => absurd rfl hnone⟩

omit hinside in
/-- A lexeme that begins no expression is a complaint. -/
theorem noExpression : Parser.noExpression.Yields (Expression.Built options levels) :=
  fun unread => .error ⟨unread.length, .unexpected unread.head? .expression⟩

/-- An expression that begins with a mark. -/
theorem marked (literals : Bool) (mark : String) :
    (Parser.marked inside literals mark).Yields (Expression.Built options levels) := by
  unfold Parser.marked
  split
  · refine peekSecond_silent.bind fun second => ?_
    split
    · exact hinside.functionValue
    · exact hinside.group
  · split
    · exact hinside.array
    · split
      · exact hinside.unary literals _
      · exact noExpression

/-- A primary expression. -/
theorem primary (literals : Bool) :
    (Parser.primary inside literals).Yields (Expression.Built options levels) := by
  unfold Parser.primary
  refine peek_silent.bind fun next => ?_
  match next with
  | none => exact noExpression
  | some ⟨kind, text⟩ =>
    cases kind with
    | number => exact (numeral_silent text).bind fun value => .pure (.number value)
    | string => exact advance_silent.bind fun _ => .pure (.string text)
    | symbol | operator => exact hinside.marked literals text
    | endOfInput => exact noExpression
    | keyword | identifier =>
      dsimp only
      split
      · exact advance_silent.bind fun _ => .pure (.boolean _)
      · split
        · exact advance_silent.bind fun _ => hinside.named literals text
        · exact noExpression

/-- An operand: accesses keep what they extend. -/
theorem operand (literals : Bool) :
    (Parser.operand inside literals).Yields (Expression.Built options levels) := by
  unfold Parser.operand
  refine .bind (hinside.primary literals) fun first earlier hfirst => ?_
  refine .repeating (fun scope later => Expression.Built options levels scope (earlier ++ later))
    (fun scope later hscope => ?_) (by rwa [List.append_nil])
  unfold nextAccess
  refine (accept_silent _).either ?_ (.finish hscope)
  refine (identifier_silent _).bind fun name => (nextIsMark_silent _).either ?_ (.pure ?_)
  · refine .bind hinside.arguments fun items reports hitems => .again ?_
    obtain ⟨left, rfl, hitems⟩ := hitems
    simpa only [List.append_assoc] using Expression.Built.memberCall hscope hitems
  · simpa [Continues] using Expression.Built.member hscope

/-- A row of operands with binary operators between them. -/
theorem binary (literals : Bool) (count : Nat) :
    (Parser.binary (Parser.operand inside literals) count).Yields
      (Expression.Built options levels) := by
  induction count with
  | zero => exact hinside.operand literals
  | succ count ih =>
    unfold Parser.binary
    refine .bind ih fun first earlier hfirst => ?_
    refine .repeating (fun left later => Expression.Built options levels left (earlier ++ later))
      (fun left later hleft => ?_) (by rwa [List.append_nil])
    unfold nextOperand
    refine (nextOperator_silent _).bind fun operator => ?_
    cases operator with
    | none => exact .finish hleft
    | some operator =>
      refine advance_silent.bind fun _ => .bind ih fun right reports hright => .again ?_
      simpa only [List.append_assoc] using Expression.Built.binary hleft hright

/-- An expression whose operators bind tighter than a minimum. -/
theorem expressionAbove (literals : Bool) (minimum : Int) :
    (Parser.expressionAbove inside literals minimum).Yields (Expression.Built options levels) := by
  unfold Parser.expressionAbove
  split
  · exact hinside.binary literals _
  · exact hinside.primary literals

end InsideBuilds

end BraceLang
