import BraceLang.Proofs.Printing.Expressions
import BraceLang.Proofs.Printing.Numerals

/-!
# Reading printed statements

There is one statement for each form of a statement, as there is for expressions. Only a conditional
statement looks at what stands behind it, for the word that leads to its last block.
-/

namespace BraceLang

open Lexeme

/-- What follows a statement is not the word that would continue a conditional one. -/
def NotElse (rest : List Lexeme) : Prop := rest.head?.any (·.isWordOf ["else"]) = false

variable {options : Options} {worded : String → Bool} {levels : Nat}

/-- A statement is read from what it is printed as, where so many levels may be opened. -/
def Statement.IsRead (options : Options) (worded : String → Bool) (levels : Nat)
    (value : Statement) : Prop :=
  (Parser.statement options (layerInside options levels)).Reads
    (Printing.statement worded value) value
    NotElse

/-- A natural number is read from what it is printed as. -/
theorem number_reads {value : Number} (hprintable : value.isPrintable = true) :
    (Expression.number value).IsRead options worded levels := by
  cases value with
  | real => cases hprintable
  | integer value =>
    simp only [Number.isPrintable, Bool.and_eq_true, decide_eq_true_eq] at hprintable
    obtain ⟨natural, rfl⟩ := Int.eq_ofNat_of_zero_le hprintable.1
    refine expression_reads_of_primary fun rest _ => ?_
    exact primary_number (Numeral.read_repr hprintable.2) rest

section Blocks

/-- A statement begins with a lexeme that neither closes a block nor continues a conditional
statement. -/
theorem Printing.begins_statement {value : Statement}
    (hprintable : value.isPrintable options = true) :
    ∃ lexeme behind, statement worded value = lexeme :: behind ∧
      lexeme.isMarkOf ["\x7d"] = false ∧ lexeme.isWordOf ["else"] = false := by
  cases value with
  | declaration binding => exact ⟨_, _, by rw [statement], rfl, by cases binding <;> decide⟩
  | conditional => exact ⟨_, _, by rw [statement], rfl, by decide⟩
  | whileLoop => exact ⟨_, _, by rw [statement], rfl, by decide⟩
  | forLoop => exact ⟨_, _, by rw [statement], rfl, by decide⟩
  | breakLoop => exact ⟨_, _, by rw [statement], rfl, by decide⟩
  | continueLoop => exact ⟨_, _, by rw [statement], rfl, by decide⟩
  | returnValue value => cases value <;> exact ⟨_, _, by rw [statement], rfl, by decide⟩
  | expression => exact ⟨mark "(", _, by rw [statement]; rfl, by decide, by decide⟩
  | struct => exact ⟨_, _, by rw [statement], rfl, by decide⟩
  | impl => exact ⟨_, _, by rw [statement], rfl, by decide⟩
  | function => exact ⟨_, _, by rw [statement], rfl, by decide⟩
  | error => simp [Statement.isPrintable] at hprintable

/-- Something is printed of every statement. -/
theorem Printing.length_lt_statement {value : Statement}
    (hprintable : value.isPrintable options = true) (rest : List Lexeme) :
    rest.length < (statement worded value ++ rest).length := by
  obtain ⟨lexeme, behind, hprint, -, -⟩ := begins_statement hprintable
  rw [hprint]
  simp only [List.cons_append, List.length_cons, List.length_append]
  omega

/-- What is printed of further statements does not continue the one in front of them. -/
theorem NotElse.statements {body : List Statement} {rest : List Lexeme}
    (hprintable : ∀ item ∈ body, item.isPrintable options = true) (hrest : NotElse rest) :
    NotElse (Printing.statements worded body ++ rest) := by
  cases body with
  | nil => exact hrest
  | cons first others =>
    obtain ⟨lexeme, behind, hprint, -, hword⟩ := @Printing.begins_statement _ worded first
      (hprintable first List.mem_cons_self)
    rw [Printing.statements, hprint]
    exact hword

/-- A round of a list of statements reads one from what it is printed as. -/
theorem nextStatement_reads {first : Statement} {closing : List String}
    (hfirst : first.IsRead options worded levels) (hprintable : first.isPrintable options = true)
    (hclosing : closing ⊆ ["\x7d"]) (held : List Statement) :
    (Parser.nextStatement (Parser.statement options (layerInside options levels)) closing
      held).Reads (Printing.statement worded first) (.again (first :: held)) NotElse := by
  intro rest hrest
  have hread := Parser.recovered_of_done (hfirst rest hrest)
  have hless := @Printing.length_lt_statement _ worded _ hprintable rest
  obtain ⟨lexeme, behind, hprint, hmark, -⟩ := @Printing.begins_statement _ worded first hprintable
  have hbegins : Begins ["\x7d"] (Printing.statement worded first) :=
    ⟨lexeme, behind, hprint, hmark⟩
  have hnot : NotMark closing (Printing.statement worded first ++ rest) :=
    (hbegins.mono hclosing).notMark rest
  refine Parser.nextStatement_of_recovered held ?_ hread hless
  rw [hnot]
  simp [hprint]

/-- Statements are read up to a closing mark or to the end of the input. -/
theorem statements_read {body : List Statement} {closing : List String} {rest : List Lexeme}
    (hbody : ∀ item ∈ body, item.IsRead options worded levels)
    (hprintable : ∀ item ∈ body, item.isPrintable options = true) (hclosing : closing ⊆ ["\x7d"])
    (hrest : rest = [] ∨ rest.head?.any (·.isMarkOf closing) = true) (helse : NotElse rest) :
    Parser.statements (Parser.statement options (layerInside options levels)) closing
        (Printing.statements worded body ++ rest) = .done body rest [] := by
  have hrounds (held : List Statement) :
      Parser.repeating
        (Parser.nextStatement (Parser.statement options (layerInside options levels)) closing) held
        (Printing.statements worded body ++ rest) = .done (body.reverse ++ held) rest [] := by
    induction body generalizing held with
    | nil =>
      have hends : rest.head?.isNone ∨ rest.head?.any (·.isMarkOf closing) :=
        hrest.imp_left fun hnil => by rw [hnil]; rfl
      refine Parser.repeating_finish ?_
      rw [Printing.statements, List.nil_append, Parser.nextStatement_apply, if_pos hends]
      rfl
    | cons first others ih =>
      have hfirst := hprintable first List.mem_cons_self
      have hothers := fun item hitem => hprintable item (List.mem_cons_of_mem first hitem)
      have hlater := ih (fun item hitem => hbody item (List.mem_cons_of_mem first hitem)) hothers
        (first :: held)
      have hfollows : NotElse (Printing.statements worded others ++ rest) :=
        helse.statements hothers
      have hround := nextStatement_reads (hbody first List.mem_cons_self) hfirst hclosing held _
        hfollows
      rw [Printing.statements, List.append_assoc]
      exact Parser.repeating_again hround (Printing.length_lt_statement hfirst _)
        (by simpa using hlater)
  unfold Parser.statements
  rw [Parser.bind_of_silent _ (hrounds [])]
  simp [Parser.pure_apply]

/-- A block is read from what it is printed as, whatever follows. -/
theorem block_reads {body : List Statement}
    (hbody : ∀ item ∈ body, item.IsRead options worded levels)
    (hprintable : ∀ item ∈ body, item.isPrintable options = true) :
    (Parser.block (layerInside options (levels + 1))).Reads
      (Printing.enclosed "\x7b" "\x7d" (Printing.statements worded body)) body fun _ => True := by
  intro rest _
  have hread : (Parser.expectMark "\x7b" .blockOpening >>= fun _ => Parser.statements
      (Parser.statement options (layerInside options levels)) ["\x7d"])
      (mark "\x7b" :: (Printing.statements worded body ++ mark "\x7d" :: rest)) =
        .done body (mark "\x7d" :: rest) [] := by
    rw [Parser.expectMark_bind_mark]
    exact statements_read hbody hprintable (by simp) (.inr (by simp)) (by simp [NotElse])
  unfold Parser.block
  rw [nested_layerInside, Layer.around, Printing.enclosed, List.cons_append, List.append_assoc,
    List.singleton_append, Parser.bind_of_silent _ hread, Parser.expectMark_bind_mark]
  rfl

/-- A function value is read from what it is printed as, whatever follows. -/
theorem functionValue_reads {returnType : TypeExpr} {body : List Statement}
    (hlevels : returnType.levels ≤ levels + 1)
    (hbody : ∀ item ∈ body, item.IsRead options worded levels)
    (hprintable : ∀ item ∈ body, item.isPrintable options = true) :
    (Parser.functionValue (layerInside options (levels + 1))).Reads
      (Printing.expression worded (.function returnType body)) (.function returnType body)
      fun _ => True := by
  intro rest _
  rw [Printing.expression]
  simp only [List.cons_append, List.append_assoc]
  unfold Parser.functionValue
  rw [Parser.advance_bind, List.tail_cons, Parser.advance_bind, List.tail_cons,
    Parser.expectMark_bind_mark, (type_reads returnType hlevels).run _
      (by simp [NotMark, Printing.enclosed]),
    (block_reads hbody hprintable).run _ trivial]
  rfl

/-- A function value is read as an expression. -/
theorem function_reads {returnType : TypeExpr} {body : List Statement}
    (hlevels : returnType.levels ≤ levels + 1)
    (hbody : ∀ item ∈ body, item.IsRead options worded levels)
    (hprintable : ∀ item ∈ body, item.isPrintable options = true) :
    (Expression.function returnType body).IsRead options worded (levels + 1) := by
  refine expression_reads_of_primary fun rest _ => ?_
  have hread := functionValue_reads hlevels hbody hprintable rest trivial
  rw [Printing.expression] at hread ⊢
  simp only [List.cons_append] at hread ⊢
  rw [primary_mark]
  unfold Parser.marked
  rw [if_pos rfl, Parser.peekSecond_bind, if_pos (by simp)]
  exact hread

end Blocks

section Forms

/-- What stands behind the word of a statement is read by the parser for that word. -/
theorem statement_keyword {text : String} {inside : Option Layer} {parser : Parser Statement}
    (hparser : Parser.behindWord options inside text = some parser) (rest : List Lexeme) :
    Parser.statement options inside (keyword text :: rest) = parser rest :=
  Parser.statement_of_word (by simp) hparser rest

/-- An expression that is no function value does not begin with an empty pair of parentheses. -/
theorem Printing.expression_not_functionValue {value : Expression}
    (hprintable : value.isPrintable options = true)
    (hvalue : ∀ returnType body, value ≠ .function returnType body) (rest : List Lexeme) :
    ((expression worded value ++ rest).head?.any (·.isMarkOf ["("]) &&
      (expression worded value ++ rest)[1]?.any (·.isMarkOf [")"])) = false := by
  -- Behind a parenthesis that is opened for an operand the operand begins.
  have hgroup {inner : Expression} (hinner : inner.isPrintable options = true)
      (behind : List Lexeme) :
      (enclosed "(" ")" (expression worded inner) ++ behind)[1]?.any (·.isMarkOf [")"]) =
        false := by
    have hbegins : Begins [")"] (expression worded inner) :=
      (begins_expression hinner).mono (by decide)
    rw [enclosed, List.cons_append, List.getElem?_cons_succ, ← List.head?_eq_getElem?,
      List.append_assoc]
    exact hbegins.notMark _
  cases value with
  | number | string | boolean | name | structLiteral | call => rfl
  | array => rfl
  | unary operator => cases operator <;> rfl
  | binary left operator right =>
    simp only [Expression.isPrintable, Bool.and_eq_true] at hprintable
    rw [expression, List.append_assoc, hgroup hprintable.1, Bool.and_false]
  | member scope =>
    rw [Expression.isPrintable] at hprintable
    rw [expression, List.append_assoc, hgroup hprintable, Bool.and_false]
  | memberCall scope =>
    simp only [Expression.isPrintable, Bool.and_eq_true] at hprintable
    rw [expression, List.append_assoc, hgroup hprintable.1, Bool.and_false]
  | function returnType body => exact absurd rfl (hvalue returnType body)
  | error => cases hprintable

/-- A declaration is read from what it is printed as. -/
theorem declaration_reads {binding : Binding} {name : String} {type : Option TypeExpr}
    {value : Expression} (hlevels : TypeExpr.statedLevels type ≤ levels)
    (hvalue : value.IsRead options worded levels) (hprintable : value.isPrintable options = true)
    (hfunction : ∀ returnType body, value = .function returnType body →
      (Parser.functionValue (layerInside options levels)).Reads
        (Printing.expression worded value) value
        fun _ => True) :
    (Statement.declaration binding name type value).IsRead options worded levels := by
  intro rest _
  have hparser : Parser.behindWord options (layerInside options levels) binding.word =
      some (Parser.declaration (layerInside options levels) binding) := by cases binding <;> rfl
  have hterminator : Ends (mark ";" :: rest) := ⟨";", by decide, rest, rfl⟩
  rw [Printing.statement]
  simp only [List.cons_append, List.append_assoc, List.nil_append]
  rw [statement_keyword hparser]
  unfold Parser.declaration
  rw [Parser.identifier_bind_identifier, (statedType_reads type hlevels).run _ (by simp [NotMark]),
    Parser.expectMark_bind_mark, Parser.nextIsFunctionValue_bind]
  by_cases hvalues : ∃ returnType body, value = .function returnType body
  · obtain ⟨returnType, body, rfl⟩ := hvalues
    rw [if_pos (by simp [Printing.expression]), (hfunction returnType body rfl).run _ trivial,
      Parser.atEnd_bind, if_neg (by simp)]
    unfold Parser.terminator
    rw [Parser.expectMark_bind_mark]
    rfl
  · have hnot := @Printing.expression_not_functionValue _ worded _ hprintable
      (fun returnType body heq => hvalues ⟨returnType, body, heq⟩) (mark ";" :: rest)
    rw [hnot, if_neg (by simp), hvalue.run _ hterminator]
    unfold Parser.terminator
    rw [Parser.expectMark_bind_mark]
    rfl

/-- A branch is read from what it is printed as, whatever follows. -/
theorem branch_reads {condition : Expression} {body : List Statement}
    (hcondition : condition.IsRead options worded levels)
    (hprintable : condition.isPrintable options = true)
    (hbody : ∀ item ∈ body, item.IsRead options worded levels)
    (hprintables : ∀ item ∈ body, item.isPrintable options = true) :
    (Parser.branch (layerInside options (levels + 1))).Reads
      (Printing.branch worded (.mk condition body)) (.mk condition body) fun _ => True := by
  intro rest _
  have hblock := block_reads hbody hprintables rest trivial
  rw [Printing.branch, List.append_assoc]
  unfold Parser.branch
  rw [(condition_reads hcondition hprintable).run _ (by exact ⟨_, rfl⟩),
    Parser.bind_of_silent _ hblock]
  rfl

/-- A loop over a condition is read from what it is printed as. -/
theorem whileLoop_reads {condition : Expression} {body : List Statement}
    (hcondition : condition.IsRead options worded levels)
    (hprintable : condition.isPrintable options = true)
    (hbody : ∀ item ∈ body, item.IsRead options worded levels)
    (hprintables : ∀ item ∈ body, item.isPrintable options = true) :
    (Statement.whileLoop condition body).IsRead options worded (levels + 1) := by
  intro rest _
  have hblock := block_reads hbody hprintables rest trivial
  rw [Printing.statement, List.cons_append, statement_keyword rfl, List.append_assoc]
  unfold Parser.whileLoop
  rw [(condition_reads hcondition hprintable).run _ (by exact ⟨_, rfl⟩),
    Parser.bind_of_silent _ hblock]
  rfl

/-- A loop over the items of something is read from what it is printed as. -/
theorem forLoop_reads {binding : Binding} {name : String} {iterable : Expression}
    {body : List Statement} (hiterable : iterable.IsRead options worded levels)
    (hprintable : iterable.isPrintable options = true)
    (hbody : ∀ item ∈ body, item.IsRead options worded levels)
    (hprintables : ∀ item ∈ body, item.isPrintable options = true) :
    (Statement.forLoop binding name iterable body).IsRead options worded (levels + 1) := by
  intro rest _
  have hblock := block_reads hbody hprintables rest trivial
  have hbinding (behind : List Lexeme) :
      Parser.binding (keyword binding.word :: behind) = .done binding behind [] := by
    unfold Parser.binding
    cases binding <;> rfl
  rw [Printing.statement]
  simp only [List.cons_append, List.append_assoc]
  rw [statement_keyword rfl]
  unfold Parser.forLoop
  rw [Parser.bind_of_silent _ (hbinding _), Parser.identifier_bind_identifier,
    Parser.expectWord_bind_keyword, (condition_reads hiterable hprintable).run _
      (by exact ⟨_, rfl⟩),
    Parser.bind_of_silent _ hblock]
  rfl

/-- A return is read from what it is printed as. -/
theorem returnValue_reads {value : Expression} (hvalue : value.IsRead options worded levels)
    (hprintable : value.isPrintable options = true) :
    (Statement.returnValue (some value)).IsRead options worded levels := by
  intro rest _
  have hterminator : Ends (mark ";" :: rest) := ⟨";", by decide, rest, rfl⟩
  have hnot : NotMark [";"] (Printing.expression worded value ++ mark ";" :: rest) :=
    ((Printing.begins_expression hprintable).mono (by decide)).notMark _
  rw [Printing.statement]
  simp only [List.cons_append, List.append_assoc, List.nil_append]
  rw [statement_keyword rfl]
  unfold Parser.returnValue
  rw [Parser.nextIsMark_bind, hnot, if_neg (by simp), hvalue.run _ hterminator]
  unfold Parser.terminator
  rw [Parser.expectMark_bind_mark]
  rfl

/-- An expression that stands as a statement is read from what it is printed as. -/
theorem expressionStatement_reads {value : Expression} (hvalue : value.IsRead options worded levels)
    (hprintable : value.isPrintable options = true) :
    (Statement.expression value).IsRead options worded (levels + 1) := by
  intro rest _
  have hterminator : Ends (mark ";" :: rest) := ⟨";", by decide, rest, rfl⟩
  have hread := @expression_reads_of_operand _ true _ _
    (fun behind hbehind => group_reads_operand hvalue hprintable behind
      (hbehind.notMark (by decide)))
    _ hterminator
  rw [Printing.statement, List.append_assoc, List.singleton_append]
  rw [Printing.enclosed, List.cons_append] at hread ⊢
  rw [Parser.statement_of_expression (by simp)]
  unfold Parser.expressionStatement
  rw [Parser.bind_of_silent _ hread]
  unfold Parser.terminator
  rw [Parser.expectMark_bind_mark]
  rfl

/-- A branch is read from what it is printed as, where so many levels may be opened. -/
def Branch.IsRead (options : Options) (worded : String → Bool) (levels : Nat) (value : Branch) :
    Prop :=
  (Parser.branch (layerInside options levels)).Reads (Printing.branch worded value) value fun _ =>
    True

/-- The branches behind the first and the last block are read from what they are printed as. -/
theorem branches_read {others : List Branch} {otherwise : Option (List Statement)}
    (hothers : ∀ item ∈ others, item.IsRead options worded levels)
    (hotherwise : ∀ body ∈ otherwise, (Parser.block (layerInside options levels)).Reads
      (Printing.enclosed "\x7b" "\x7d" (Printing.statements worded body)) body fun _ => True)
    {rest : List Lexeme} (hrest : NotElse rest) (held : List Branch) :
    Parser.repeating (Parser.nextBranch (layerInside options levels)) (held, none)
        (Printing.branches worded others ++ (Printing.alternative worded otherwise ++ rest)) =
      .done (others.reverse ++ held, otherwise) rest [] := by
  induction others generalizing held with
  | nil =>
    refine Parser.repeating_finish ?_
    rw [Printing.branches, List.nil_append]
    unfold Parser.nextBranch
    cases otherwise with
    | none =>
      rw [Printing.alternative, List.nil_append, Parser.nextIsWord_bind, hrest]
      rfl
    | some body =>
      rw [Printing.alternative, List.cons_append, Parser.nextIsWord_bind, if_pos (by simp),
        Parser.advance_bind, List.tail_cons, Parser.nextIsWord_bind,
        if_neg (by simp [Printing.enclosed]), (hotherwise body rfl).run _ trivial]
      rfl
  | cons first others ih =>
    have hlater := ih (fun item hitem => hothers item (List.mem_cons_of_mem first hitem))
      (first :: held)
    have hfirst := hothers first List.mem_cons_self
    rw [Printing.branches]
    simp only [List.cons_append, List.append_assoc]
    refine Parser.repeating_again ?_ ?_ (by simpa using hlater)
    · unfold Parser.nextBranch
      rw [Parser.nextIsWord_bind, if_pos (by simp), Parser.advance_bind, List.tail_cons,
        Parser.nextIsWord_bind, if_pos (by simp), Parser.advance_bind, List.tail_cons,
        hfirst.run _ trivial]
      rfl
    · simp only [List.length_cons, List.length_append]
      omega

/-- A conditional statement is read from what it is printed as. -/
theorem conditional_reads {first : Branch} {others : List Branch}
    {otherwise : Option (List Statement)} (hfirst : first.IsRead options worded levels)
    (hothers : ∀ item ∈ others, item.IsRead options worded levels)
    (hotherwise : ∀ body ∈ otherwise, (Parser.block (layerInside options levels)).Reads
      (Printing.enclosed "\x7b" "\x7d" (Printing.statements worded body)) body fun _ => True) :
    (Statement.conditional first others otherwise).IsRead options worded levels := by
  intro rest hrest
  have hbranches := branches_read hothers hotherwise hrest []
  rw [Printing.statement]
  simp only [List.cons_append, List.append_assoc]
  rw [statement_keyword rfl]
  unfold Parser.conditional
  rw [hfirst.run _ trivial, Parser.bind_of_silent _ hbranches]
  simp [Parser.pure_apply]

/-- A struct is read from what it is printed as. -/
theorem struct_reads {name : String} {fields : List StructField}
    (hlevels : TypeExpr.maxLevels (fields.map StructField.type) ≤ levels) :
    (Statement.struct name fields).IsRead options worded levels := by
  intro rest _
  have hfield (field : StructField) (hmem : field ∈ fields) :
      (Parser.structField (layerInside options levels)).Reads (Printing.structField field) field
        Ends := by
    have htype := @types_read options _ _ hlevels field.type (List.mem_map_of_mem hmem)
    intro behind hbehind
    rw [Printing.structField]
    simp only [List.cons_append]
    unfold Parser.structField
    rw [Parser.identifier_bind_identifier, Parser.expectMark_bind_mark,
      htype.run _ (hbehind.notMark (by decide))]
    rfl
  have hread := @Parser.upTo_reads _ Printing.structField Ends fields "\x7d" rest
    (fun _ => Parser.structField (layerInside options levels)) [",", ";"] (by simp) (by simp)
    (fun behind => ⟨",", by decide, behind, rfl⟩) ⟨"\x7d", by decide, rest, rfl⟩
    (fun before field after hsplit => hfield field (by rw [hsplit]; simp))
    (fun field _ => ⟨_, _, rfl, rfl⟩)
  rw [Printing.statement, Printing.enclosed]
  simp only [List.cons_append, List.append_assoc, List.nil_append]
  rw [statement_keyword rfl]
  unfold Parser.struct
  rw [Parser.identifier_bind_identifier, Parser.expectMark_bind_mark, Parser.bind_of_silent _ hread,
    Parser.expectMark_bind_mark]
  rfl

/-- The parameters of a function are read from what they are printed as. -/
theorem parameters_read {parameters : List Parameter}
    (hlevels : Parameter.maxLevels parameters ≤ levels) :
    (Parser.parameters (layerInside options levels)).Reads
      (Printing.enclosed "(" ")" (Printing.separated (parameters.map Printing.parameter)))
        parameters
      fun _ => True := by
  intro rest _
  have hstated : ∀ parameter ∈ parameters, TypeExpr.statedLevels parameter.type ≤ levels := by
    induction parameters with
    | nil => nofun
    | cons first others ih =>
      rw [Parameter.maxLevels, Nat.max_le] at hlevels
      exact List.forall_mem_cons.mpr ⟨hlevels.1, ih hlevels.2⟩
  have hparameter (parameter : Parameter) (hmem : parameter ∈ parameters) :
      (Parser.parameter (layerInside options levels)).Reads (Printing.parameter parameter) parameter
        Ends := by
    intro behind hbehind
    rw [Printing.parameter, List.cons_append]
    unfold Parser.parameter
    rw [Parser.identifier_bind_identifier,
      (statedType_reads _ (hstated parameter hmem)).run _ (hbehind.notMark (by decide))]
    rfl
  have hread := Parser.listed_reads hparameter (fun parameter _ => ⟨_, _, rfl, rfl⟩)
    (fun behind => ⟨",", by decide, behind, rfl⟩)
    (show Ends (mark ")" :: rest) from ⟨")", by decide, rest, rfl⟩) (by decide)
  rw [Printing.enclosed]
  simp only [List.cons_append, List.append_assoc, List.nil_append]
  unfold Parser.parameters
  rw [Parser.expectMark_bind_mark, Parser.bind_of_silent _ hread, Parser.expectMark_bind_mark]
  rfl

/-- A function is read from what it is printed as, where so many levels may be opened and its return
type may have to be stated. -/
def Function.IsRead (options : Options) (worded : String → Bool) (levels : Nat) (stated : Bool)
    (value : Function) : Prop :=
  ∀ expected, (Parser.callable (layerInside options levels) expected stated).Reads
    (Printing.function worded value) value fun _ => True

/-- A function is read from what it is printed as. -/
theorem callable_reads {name : String} {parameters : List Parameter} {returnType : Option TypeExpr}
    {body : List Statement} {stated : Bool} (hstated : returnType.isSome = true ∨ stated = false)
    (hparameters : Parameter.maxLevels parameters ≤ levels + 1)
    (hreturn : TypeExpr.statedLevels returnType ≤ levels + 1)
    (hbody : ∀ item ∈ body, item.IsRead options worded levels)
    (hprintable : ∀ item ∈ body, item.isPrintable options = true) :
    (Function.mk name parameters returnType body).IsRead options worded (levels + 1) stated := by
  intro expected rest _
  rw [Printing.function]
  simp only [List.cons_append, List.append_assoc]
  unfold Parser.callable
  rw [Parser.identifier_bind_identifier, (parameters_read hparameters).run _ trivial,
    (returnType_reads hstated hreturn).run _ (by simp [NotMark, Printing.enclosed]),
    (block_reads hbody hprintable).run _ trivial]
  rfl

/-- A function is read as a statement. -/
theorem functionStatement_reads {value : Function}
    (hvalue : value.IsRead options worded levels options.functionsStateReturn) :
    (Statement.function value).IsRead options worded levels := by
  intro rest _
  rw [Printing.statement, List.cons_append, statement_keyword rfl]
  unfold Parser.function
  rw [(hvalue .functionName).run _ trivial]
  rfl

/-- A method is read with or without the word in front. -/
theorem method_reads {value : Function}
    (hvalue : value.IsRead options worded levels options.methodsStateReturn) :
    (Parser.method options (layerInside options levels)).Reads
      (Printing.withWord worded value.name (Printing.function worded value)) value fun _ =>
        True := by
  intro rest _
  have hread := hvalue .methodName rest trivial
  unfold Parser.method
  rw [Parser.nextIsWord_bind, Printing.withWord]
  by_cases hword : (worded value.name || value.name == "fn") = true
  · rw [if_pos hword, List.cons_append, if_pos (by simp), Parser.advance_bind, List.tail_cons]
    exact hread
  · have hname : value.name ≠ "fn" := fun heq => hword (by simp [heq])
    have hnot : (Printing.function worded value ++ rest).head?.any (·.isWordOf ["fn"]) = false := by
      cases value
      simpa [Printing.function, Function.name] using hname
    rw [if_neg hword, hnot, if_neg (by simp)]
    exact hread

/-- A method begins with a word. -/
theorem Printing.begins_method (value : Function) :
    Begins ["\x7d"] (withWord worded value.name (function worded value)) := by
  unfold withWord
  split
  · exact ⟨_, _, rfl, rfl⟩
  · cases value
    exact ⟨_, _, by rw [function], rfl⟩

/-- The methods of a struct are read from what they are printed as. -/
theorem impl_reads {name : String} {methods : List Function}
    (hmethods : ∀ item ∈ methods, item.IsRead options worded levels options.methodsStateReturn) :
    (Statement.impl name methods).IsRead options worded levels := by
  intro rest _
  have hrounds (held : List Function) :
      Parser.repeating (Parser.nextMethod options (layerInside options levels)) held
          (Printing.methods worded methods ++ mark "\x7d" :: rest) =
        .done (methods.reverse ++ held) (mark "\x7d" :: rest) [] := by
    induction methods generalizing held with
    | nil =>
      refine Parser.repeating_finish ?_
      unfold Parser.nextMethod
      rw [Printing.methods, List.nil_append, Parser.nextIsMark_bind, if_pos (by simp)]
      rfl
    | cons first others ih =>
      have hlater := ih (fun item hitem => hmethods item (List.mem_cons_of_mem first hitem))
        (first :: held)
      have hfirst := method_reads (hmethods first List.mem_cons_self)
      have hbegins := @Printing.begins_method worded first
      have hnot := hbegins.notMark (Printing.methods worded others ++ mark "\x7d" :: rest)
      obtain ⟨lexeme, behind, hprint, -⟩ := hbegins
      rw [Printing.methods, List.append_assoc]
      refine Parser.repeating_again ?_ ?_ (by simpa using hlater)
      · unfold Parser.nextMethod
        rw [Parser.nextIsMark_bind, hnot, if_neg (by simp), Parser.atEnd_bind,
          if_neg (by simp [hprint]), hfirst.run _ trivial]
        rfl
      · rw [hprint]
        simp only [List.cons_append, List.length_cons, List.length_append]
        omega
  rw [Printing.statement, Printing.enclosed]
  simp only [List.cons_append, List.append_assoc, List.nil_append]
  rw [statement_keyword rfl]
  unfold Parser.impl
  rw [Parser.identifier_bind_identifier, Parser.expectMark_bind_mark,
    Parser.bind_of_silent _ (hrounds []), Parser.expectMark_bind_mark]
  simp [Parser.pure_apply]

end Forms

end BraceLang
