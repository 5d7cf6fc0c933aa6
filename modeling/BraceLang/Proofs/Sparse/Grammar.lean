import BraceLang.Proofs.Sparse.Parsers

/-!
# The grammar has sparse reports

Each parser of the grammar has sparse reports if those of the layer inside it do. What follows a
type, an expression or a block reports nothing at the end but a failure: a mark that is missing, a
block that does not begin, a repetition that ends.
-/

namespace BraceLang

open BraceLang.Parser

/-- A layer whose parsers have sparse reports, where so many levels may be opened. -/
structure Layer.Sparse (levels : Nat) (layer : Layer) : Prop where
  type : layer.type.Sparse levels
  expression (literals : Bool) : (layer.expression literals).Sparse levels
  operand (literals : Bool) : (layer.operand literals).Sparse levels
  statement : layer.statement.Sparse levels

/-- What is inside a construct, if anything is, has sparse reports where one level less may be
opened. -/
def InsideSparse (levels : Nat) (inside : Option Layer) : Prop :=
  ∀ layer ∈ inside, ∃ fewer, levels = fewer + 1 ∧ layer.Sparse fewer

namespace InsideSparse

variable {options : Options} {levels : Nat} {inside : Option Layer}
  (hinside : InsideSparse levels inside)
include hinside

/-- Something that is read one level further in. -/
theorem nested {α : Type} {parser : Layer → Parser α}
    (hparser : ∀ {layer : Layer}, layer.Sparse levels → (parser layer).Sparse levels) :
    (BraceLang.nested inside parser).Sparse levels := by
  refine .nested fun layer hlayer => hparser ?_
  obtain ⟨fewer, rfl, hsparse⟩ := hinside layer hlayer
  have hmore : fewer ≤ fewer + 1 := Nat.le_succ fewer
  exact ⟨hsparse.type.mono hmore, fun literals => (hsparse.expression literals).mono hmore,
    fun literals => (hsparse.operand literals).mono hmore, hsparse.statement.mono hmore⟩

section Types

/-- Type arguments are followed by a mark alone. -/
theorem typeArguments : (Parser.typeArguments inside).Sparse levels := by
  refine .bind (hinside.nested fun hlayer => .separated hlayer.type) (fun types => ?_)
    fun types => .expectMark
  exact (expectMark_terse _ _).bind fun _ => (Terse.pure types).sparse

/-- A name says nothing in front of its type arguments. -/
theorem type : (Parser.type inside).Sparse levels := by
  refine (word_terse _).bind fun name => ?_
  exact (accept_terse _).either hinside.typeArguments.returning (Terse.pure _).sparse

/-- An annotation is a colon and a type. -/
theorem annotation : (Parser.annotation inside).Sparse levels :=
  (accept_terse _).either hinside.type.returning (Terse.pure _).sparse

end Types

section Expressions

/-- A block is followed by a mark alone. -/
theorem block : (Parser.block inside).Sparse levels := by
  refine .block fun layer hlayer => ?_
  obtain ⟨fewer, hlevels, hsparse⟩ := hinside layer hlayer
  exact ⟨fewer, hlevels, hsparse.statement⟩

/-- So are arguments. -/
theorem arguments : (Parser.arguments inside).Sparse levels := by
  refine hinside.nested fun hlayer => advance_terse.bind fun _ => ?_
  exact .closed (.listed (hlayer.expression true) _)

/-- A function value is a parameter list without reports and a block. -/
theorem functionValue : (Parser.functionValue inside).Sparse levels := by
  refine advance_terse.bind fun _ => advance_terse.bind fun _ => ?_
  refine (expectMark_terse _ _).bind fun _ => ?_
  refine hinside.type.bind (fun returnType => hinside.block.returning) fun returnType => ?_
  exact .bind (.block inside) fun body => .pure _

/-- A group is followed by a mark alone. -/
theorem group : (Parser.group inside).Sparse levels := by
  refine hinside.nested fun hlayer => advance_terse.bind fun _ => ?_
  exact .closed (hlayer.expression true)

/-- So is an array. -/
theorem array : (Parser.array inside).Sparse levels := by
  refine hinside.nested fun hlayer => advance_terse.bind fun _ => ?_
  exact .closed (.listed (hlayer.expression true) _)

/-- An operator says nothing in front of its operand. -/
theorem unary (literals : Bool) (operator : UnaryOperator) :
    (Parser.unary inside literals operator).Sparse levels := by
  refine hinside.nested fun hlayer => advance_terse.bind fun _ => ?_
  exact (hlayer.operand literals).returning

omit hinside in
/-- A field of a struct literal. -/
theorem literalField {layer : Layer} (hlayer : layer.Sparse levels) (struct : String)
    (given : List (String × Expression)) :
    (Parser.literalField layer struct given).Sparse levels := by
  unfold Parser.literalField
  refine peek_terse.bind fun next => ?_
  cases next with
  | none => exact (reject_terse _).sparse
  | some lexeme =>
    dsimp only
    split
    · split
      · exact (rejectPassing_terse _).sparse
      · exact advance_terse.bind fun _ => (accept_terse _).either
          (hlayer.expression true).returning (Terse.pure _).sparse
    · exact (reject_terse _).sparse

/-- A struct value is followed by a mark alone. -/
theorem structLiteral (name : String) : (Parser.structLiteral inside name).Sparse levels := by
  refine hinside.nested fun hlayer => advance_terse.bind fun _ => ?_
  exact .closed (.upTo (literalField hlayer name) _ _)

/-- What is called is followed by its arguments. -/
theorem called (name : Name) : (Parser.called inside name).Sparse levels :=
  (nextIsMark_terse _).either hinside.arguments.returning (Terse.pure _).sparse

/-- A name may begin a call, an access or a struct value, and is decided without a report. -/
theorem named (literals : Bool) (name : String) :
    (Parser.named inside literals name).Sparse levels := by
  unfold Parser.named
  refine (nextIsMark_terse _).bind fun brace => ?_
  split
  · exact hinside.structLiteral name
  · refine nextAreTypeArguments_terse.bind fun generic => ?_
    split
    · exact advance_terse.bind fun _ => hinside.typeArguments.bind (fun _ => hinside.called _)
        fun _ => Terse.pure _ []
    · exact hinside.called _

/-- So is a mark that begins an expression. -/
theorem marked (literals : Bool) (mark : String) :
    (Parser.marked inside literals mark).Sparse levels := by
  unfold Parser.marked
  split
  · refine peekSecond_terse.bind fun second => ?_
    split
    · exact hinside.functionValue
    · exact hinside.group
  · split
    · exact hinside.array
    · split
      · exact hinside.unary literals _
      · exact noExpression_sparse

/-- A primary expression is decided by its first lexeme. -/
theorem primary (literals : Bool) : (Parser.primary inside literals).Sparse levels := by
  unfold Parser.primary
  refine peek_terse.bind fun next => ?_
  match next with
  | none => exact noExpression_sparse
  | some ⟨kind, text⟩ =>
    cases kind with
    | number => exact (numeral_terse text).bind fun _ => (Terse.pure _).sparse
    | string => exact advance_terse.bind fun _ => (Terse.pure _).sparse
    | symbol | operator => exact hinside.marked literals text
    | endOfInput => exact noExpression_sparse
    | keyword | identifier =>
      dsimp only
      split
      · exact advance_terse.bind fun _ => (Terse.pure _).sparse
      · split
        · exact advance_terse.bind fun _ => hinside.named literals text
        · exact noExpression_sparse

/-- An operand goes on with its accesses. -/
theorem operand (literals : Bool) : (Parser.operand inside literals).Sparse levels := by
  unfold Parser.operand
  have hend (scope : Expression) :
      ∃ last, nextAccess inside scope [] = .done (.finish last) [] [] := ⟨scope, rfl⟩
  refine (hinside.primary literals).bind (.repeating (fun scope => ?_) hend) (.repeating hend)
  exact (accept_terse _).either ((identifier_terse _).bind fun _ => (nextIsMark_terse _).either
    hinside.arguments.returning (Terse.pure _).sparse) (Terse.pure _).sparse

/-- An operator says nothing in front of what stands behind it, at every precedence. -/
theorem binary (literals : Bool) (count : Nat) :
    (Parser.binary (Parser.operand inside literals) count).Sparse levels := by
  induction count with
  | zero => exact hinside.operand literals
  | succ count ih =>
    unfold Parser.binary
    have hend (left : Expression) : ∃ last,
        nextOperand (Parser.binary (Parser.operand inside literals) count) (6 - count) left [] =
          .done (.finish last) [] [] := ⟨left, rfl⟩
    refine ih.bind (.repeating (fun left => ?_) hend) (.repeating hend)
    unfold nextOperand
    refine (nextOperator_terse _).bind fun operator => ?_
    cases operator with
    | none => exact (Terse.pure _).sparse
    | some operator => exact advance_terse.bind fun _ => ih.returning

/-- An expression is sparse at the loosest precedence. -/
theorem expression (literals : Bool) : (Parser.expression inside literals).Sparse levels :=
  hinside.binary literals _

end Expressions

section Statements

/-- A declaration says nothing in front of its type. -/
theorem declaration (binding : Binding) : (Parser.declaration inside binding).Sparse levels := by
  unfold Parser.declaration
  refine (identifier_terse _).bind fun name => hinside.annotation.bind (fun type => ?_) fun _ =>
    .expectMark
  refine (expectMark_terse _ _).bind fun _ => nextIsFunctionValue_terse.either ?_ ?_
  · refine hinside.functionValue.bind (fun value => ?_) fun value => Terse.pure _ []
    exact atEnd_terse.either (Terse.pure _).sparse
      ((expectMark_terse _ _).bind fun _ => (Terse.pure _).sparse)
  · exact .closed (hinside.expression true)

/-- A condition, or the like, in front of a block. -/
theorem guarded {α : Type} (make : Expression → List Statement → α) :
    (Parser.expression inside false >>= fun value => Parser.block inside >>= fun body =>
      pure (make value body)).Sparse levels := by
  refine (hinside.expression false).bind (fun value => hinside.block.returning) fun value => ?_
  exact .bind (.block inside) fun body => .pure _

/-- A conditional goes on with a block behind its condition. -/
theorem conditional : (Parser.conditional inside).Sparse levels := by
  unfold Parser.conditional
  have hend (others : List Branch × Option (List Statement)) :
      ∃ last, nextBranch inside others [] = .done (.finish last) [] [] := ⟨(others.1, none), rfl⟩
  refine (hinside.guarded Branch.mk).bind
    (fun first => .returning (.repeating (fun others => ?_) hend _))
    fun first => .bind (.repeating hend _) fun _ => .pure _
  refine (nextIsWord_terse _).either (advance_terse.bind fun _ => ?_) (Terse.pure _).sparse
  exact (nextIsWord_terse _).either
    (advance_terse.bind fun _ => (hinside.guarded Branch.mk).returning) hinside.block.returning

/-- So does a loop behind its header. -/
theorem forLoop : (Parser.forLoop inside).Sparse levels := by
  have hbinding : binding.Terse :=
    (nextIsWord_terse _).choose (advance_terse.follow fun _ => .pure _) <|
      (nextIsWord_terse _).choose (advance_terse.follow fun _ => .pure _) (reject_terse _)
  refine hbinding.bind fun binding => (identifier_terse _).bind fun name => ?_
  exact (expectWord_terse _ _).bind fun _ => hinside.guarded _

/-- A `return` is decided without a report. -/
theorem returnValue : (Parser.returnValue inside).Sparse levels := by
  refine (nextIsMark_terse _).either ?_ (.closed (hinside.expression true))
  exact (expectMark_terse _ _).bind fun _ => (Terse.pure _).sparse

/-- A field of a struct is a name and its type. -/
theorem structField : (Parser.structField inside).Sparse levels := by
  refine (identifier_terse _).bind fun name => ?_
  exact (expectMark_terse _ _).bind fun _ => hinside.type.returning

/-- The fields of a struct are followed by a mark alone. -/
theorem struct : (Parser.struct inside).Sparse levels := by
  refine (identifier_terse _).bind fun name => (expectMark_terse _ _).bind fun _ => ?_
  exact .closed (.upTo (fun fields => hinside.structField) _ _)

/-- A parameter is a name and its type. -/
theorem parameter : (Parser.parameter inside).Sparse levels :=
  (identifier_terse _).bind fun _ => hinside.annotation.returning

/-- A return type is decided without a report. -/
theorem returnType (stated : Bool) : (Parser.returnType inside stated).Sparse levels := by
  unfold Parser.returnType
  refine (accept_terse _).either hinside.type.returning ?_
  split
  · exact (reject_terse _).sparse
  · exact (Terse.pure _).sparse

omit hinside in

/-- At the end it is missed once at most. -/
theorem returnType_end (stated : Bool) : (Parser.returnType inside stated).EndsTersely := by
  cases stated with
  | false => exact Terse.pure none []
  | true => exact reject_terse .returnType []

/-- What can be called goes on with a block behind its return type. -/
theorem callable (expected : Expected) (stated : Bool) :
    (Parser.callable inside expected stated).Sparse levels := by
  have hparameters : (Parser.parameters inside).Sparse levels :=
    (expectMark_terse _ _).bind fun _ => .closed (.listed hinside.parameter _)
  -- whatever of it stands at the end, no block begins there
  have hbody (name : String) (parameters : List Parameter) (returnType : Option TypeExpr) :
      (Parser.block inside >>= fun body =>
        pure (Function.mk name parameters returnType body)).EndsTersely :=
    .bind (.block inside) fun _ => .pure _
  refine (identifier_terse _).bind fun name => hparameters.bind (fun parameters => ?_)
    fun parameters => ?_
  · exact (hinside.returnType stated).bind (fun returnType => hinside.block.returning)
      (hbody name parameters)
  · exact .bind (returnType_end stated) (hbody name parameters)

/-- The methods of an `impl` are followed by a mark alone. -/
theorem impl : (Parser.impl options inside).Sparse levels := by
  have hmethod : (Parser.method options inside).Sparse levels :=
    (nextIsWord_terse _).either (advance_terse.bind fun _ => hinside.callable _ _)
      (hinside.callable _ _)
  unfold Parser.impl
  refine (identifier_terse _).bind fun name => (expectMark_terse _ _).bind fun _ => ?_
  refine .closed (.repeating (fun methods => ?_) (fun methods => ⟨methods, rfl⟩) _)
  exact (nextIsMark_terse _).either (Terse.pure _).sparse
    (atEnd_terse.either (Terse.pure _).sparse hmethod.returning)

/-- An expression is followed by a semicolon alone. -/
theorem expressionStatement : (Parser.expressionStatement inside).Sparse levels :=
  .closed (hinside.expression true)

/-- So a statement that begins with a keyword has sparse reports. -/
theorem behindWord {word : String} {parser : Parser Statement}
    (hword : Parser.behindWord options inside word = some parser) : parser.Sparse levels := by
  have hclosed (statement : Statement) : (Parser.closed statement).Sparse levels :=
    (expectMark_terse _ _).bind fun _ => (Terse.pure _).sparse
  cases hword using Parser.behindWord_cases with
  | declaration binding => exact hinside.declaration binding
  | conditional => exact hinside.conditional
  | whileLoop => exact hinside.guarded Statement.whileLoop
  | forLoop => exact hinside.forLoop
  | breakLoop => exact hclosed .breakLoop
  | continueLoop => exact hclosed .continueLoop
  | returnValue => exact hinside.returnValue
  | struct => exact hinside.struct
  | impl => exact hinside.impl
  | function => exact (hinside.callable _ _).returning

/-- So does every statement. -/
theorem statement : (Parser.statement options inside).Sparse levels := by
  unfold Parser.statement
  refine peek_terse.bind fun next => ?_
  cases next with
  | none => exact hinside.expressionStatement
  | some lexeme =>
    dsimp only
    split
    · next parser hparser =>
      split at hparser
      · exact advance_terse.bind fun _ => hinside.behindWord hparser
      · cases hparser
    · exact hinside.expressionStatement

end Statements

end InsideSparse

/-- Every layer has sparse reports, from the innermost one outwards. -/
theorem layerInside_sparse (options : Options) (levels : Nat) :
    InsideSparse levels (layerInside options levels) := by
  induction levels with
  | zero => exact fun layer hlayer => nomatch hlayer
  | succ levels ih =>
    rintro layer ⟨⟩
    exact ⟨levels, rfl, ih.type, ih.expression, ih.operand, ih.statement⟩

end BraceLang
