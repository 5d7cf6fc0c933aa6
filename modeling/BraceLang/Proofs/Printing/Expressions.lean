import BraceLang.Proofs.Printing.Types

/-!
# Reading printed expressions

There is one statement for each form of an expression: the form is read from what it is printed as,
given that its parts are, one level further in where the form opens one. What is in parentheses is
read as an operand whatever stands behind it, unless that is an access to its scope, so an operation
is read as one whatever its precedence.
-/

namespace BraceLang

open Lexeme

variable {options : Options} {worded : String → Bool} {levels : Nat}

/-- An expression is read from what it is printed as, where so many levels may be opened. -/
def Expression.IsRead (options : Options) (worded : String → Bool) (levels : Nat)
    (value : Expression) : Prop :=
  (Parser.expression (layerInside options levels) true).Reads
    (Printing.expression worded value) value
    Ends

/-- An expression begins with no mark that may stand behind one. -/
theorem Printing.begins_expression {value : Expression}
    (hprintable : value.isPrintable options = true) :
    Begins endings (expression worded value) := by
  have hmark (text : String) (behind : List Lexeme) (htext : text ∉ endings) :
      Begins endings (mark text :: behind) := ⟨_, _, rfl, by simpa using htext⟩
  cases value with
  | number => exact ⟨_, _, rfl, rfl⟩
  | string => exact ⟨_, _, rfl, rfl⟩
  | boolean => exact ⟨_, _, rfl, rfl⟩
  | name => exact ⟨_, _, rfl, rfl⟩
  | array => exact hmark "[" _ (by decide)
  | structLiteral => exact ⟨_, _, rfl, rfl⟩
  | binary => exact hmark "(" _ (by decide)
  | unary operator => exact hmark operator.spelling _ (by cases operator <;> decide)
  | member => exact hmark "(" _ (by decide)
  | memberCall => exact hmark "(" _ (by decide)
  | call => exact ⟨_, _, rfl, rfl⟩
  | function => exact hmark "(" _ (by decide)
  | error => simp [Expression.isPrintable] at hprintable

/-- A row that begins with none of some marks begins with none of fewer marks. -/
theorem Begins.mono {marks fewer : List String} {row : List Lexeme} (hbegins : Begins marks row)
    (hfewer : fewer ⊆ marks) : Begins fewer row := by
  obtain ⟨lexeme, behind, rfl, hmark⟩ := hbegins
  have hnot : NotMark marks (lexeme :: behind) := by simpa [NotMark] using hmark
  exact ⟨lexeme, behind, rfl, by simpa [NotMark] using hnot.mono hfewer⟩

section Operations

/-- What follows begins with no binary operator but those whose precedences are below a bound. -/
def OperatorsBelow (bound : Nat) (rest : List Lexeme) : Prop :=
  ∀ lexeme ∈ rest.head?, ∀ operator, BinaryOperator.ofSpelling? lexeme.text = some operator →
    operator.precedence < bound

/-- Where one of some marks is next that are no operators, no operator is. -/
theorem operatorsBelow_of_isMarkOf {marks : List String} {lexeme : Lexeme}
    (hmark : lexeme.isMarkOf marks = true)
    (hmarks : ∀ text ∈ marks, BinaryOperator.ofSpelling? text = none) (bound : Nat)
    (rest : List Lexeme) : OperatorsBelow bound (lexeme :: rest) := by
  simp only [isMarkOf, Bool.and_eq_true, List.contains_iff_mem] at hmark
  intro found hfound operator hoperator
  obtain rfl := Option.some.inj hfound
  rw [hmarks _ hmark.2] at hoperator
  cases hoperator

/-- No mark that may stand behind an expression is an operator. -/
theorem Ends.operatorsBelow {rest : List Lexeme} (hends : Ends rest) (bound : Nat) :
    OperatorsBelow bound rest := by
  obtain ⟨text, htext, behind, rfl⟩ := hends
  have hmark : (mark text).isMarkOf endings = true := by simpa using htext
  exact operatorsBelow_of_isMarkOf hmark (by decide) bound behind

/-- Where an operator is next whose precedence is below a bound, no other one is. -/
theorem operatorsBelow_of_precedence {operator : BinaryOperator} {lexeme : Lexeme} {bound : Nat}
    (hmark : lexeme.isMarkOf [operator.spelling] = true) (hbound : operator.precedence < bound)
    (rest : List Lexeme) : OperatorsBelow bound (lexeme :: rest) := by
  intro found hfound other hother
  obtain rfl := Option.some.inj hfound
  rw [(of_isMarkOf_singleton hmark).2, operator.ofSpelling?_spelling] at hother
  obtain rfl := Option.some.inj hother
  exact hbound

/-- A row of operands ends where no operator of its precedence is next. -/
theorem nextOperand_finish {behind : Parser Expression} {bound precedence : Nat} {left : Expression}
    {rest : List Lexeme} (hbelow : OperatorsBelow bound rest) (hbound : bound ≤ precedence) :
    Parser.nextOperand behind precedence left rest = .done (.finish left) rest [] := by
  unfold Parser.nextOperand
  rw [Parser.nextOperator_bind]
  cases rest with
  | nil => rfl
  | cons lexeme rest =>
    have hnone : (BinaryOperator.ofSpelling? lexeme.text).filter (·.precedence == precedence) =
        none := by
      rw [Option.filter_eq_none_iff]
      intro operator hoperator
      have hlt := hbelow lexeme rfl operator hoperator
      simp only [beq_iff_eq]
      omega
    simp only [List.head?_cons, Option.bind_some, hnone, ite_self]
    rfl

/-- A row of operands goes on behind an operator of its precedence, with the operand there. -/
theorem nextOperand_again {behind : Parser Expression} {operator : BinaryOperator} {lexeme : Lexeme}
    {right : Expression} {unread rest : List Lexeme}
    (hmark : lexeme.isMarkOf [operator.spelling] = true)
    (hright : behind unread = .done right rest []) (left : Expression) :
    Parser.nextOperand behind operator.precedence left (lexeme :: unread) =
      .done (.again (.binary left operator right)) rest [] := by
  obtain ⟨hisMark, htext⟩ := of_isMarkOf_singleton hmark
  unfold Parser.nextOperand
  rw [Parser.nextOperator_bind]
  simp only [List.head?_cons, Option.bind_some, hisMark, htext, if_true,
    operator.ofSpelling?_spelling, Option.filter_some, beq_self_eq_true]
  rw [Parser.advance_bind, List.tail_cons, Parser.bind_of_silent _ hright]
  rfl

/-- What is read as a row of operands of greater precedences is read as one of lesser precedences,
unless an operator of such a precedence follows. -/
theorem binary_more {operand : Parser Expression} {count bound : Nat} {value : Expression}
    {unread rest : List Lexeme} {reports : List Report} (hbelow : OperatorsBelow bound rest)
    (hread : Parser.binary operand count unread = .done value rest reports) (more : Nat)
    (hbound : bound + (count + more) ≤ 7) :
    Parser.binary operand (count + more) unread = .done value rest reports := by
  induction more with
  | zero => exact hread
  | succ more ih =>
    have hlater := ih (by omega)
    have hprecedence : bound ≤ 6 - (count + more) := by omega
    exact Parser.bind_of_done_silent hlater
      (Parser.repeating_finish (nextOperand_finish hbelow hprecedence))

/-- An operation is read from two operands with its mark between them, whatever its precedence. -/
theorem operation_reads {operand : Parser Expression} {left right : Expression}
    {operator : BinaryOperator} {leftRow rightRow : List Lexeme}
    (hleft : operand.Reads leftRow left (NotMark ["::"]))
    (hright : operand.Reads rightRow right (NotMark ["::"])) :
    (Parser.binary operand 7).Reads (leftRow ++ mark operator.spelling :: rightRow)
      (.binary left operator right) Ends := by
  intro rest hrest
  have hlt := operator.precedence_lt
  have hbelow := hrest.operatorsBelow 0
  obtain ⟨count, hcount⟩ : ∃ count, count + operator.precedence = 6 :=
    ⟨6 - operator.precedence, by omega⟩
  have hmark : (mark operator.spelling).isMarkOf [operator.spelling] = true := by simp
  have hfirst : Parser.binary operand count
      (leftRow ++ mark operator.spelling :: (rightRow ++ rest)) =
        .done left (mark operator.spelling :: (rightRow ++ rest)) [] := by
    have hscope : operator.spelling ≠ "::" := by cases operator <;> decide
    have hread := hleft (mark operator.spelling :: (rightRow ++ rest))
      (by simpa [NotMark] using hscope)
    -- Behind the left operand the operator itself is next, which is of no greater precedence.
    have hself := operatorsBelow_of_precedence hmark (Nat.lt_succ_self _) (rightRow ++ rest)
    have hmore := @binary_more operand 0 _ _ _ _ _ hself hread count (by omega)
    rwa [Nat.zero_add] at hmore
  have hsecond : Parser.binary operand count (rightRow ++ rest) = .done right rest [] := by
    have hread := hright rest (hrest.notMark (by decide))
    have hmore := @binary_more operand 0 _ _ _ _ _ hbelow hread count (by omega)
    rwa [Nat.zero_add] at hmore
  have hround : Parser.nextOperand (Parser.binary operand count) (6 - count) left
      (mark operator.spelling :: (rightRow ++ rest)) =
        .done (.again (.binary left operator right)) rest [] := by
    rw [show 6 - count = operator.precedence by omega]
    exact nextOperand_again hmark hsecond left
  have hrow : Parser.binary operand (count + 1)
      (leftRow ++ mark operator.spelling :: (rightRow ++ rest)) =
        .done (.binary left operator right) rest [] := by
    change (Parser.binary operand count >>= _) _ = _
    rw [Parser.bind_of_silent _ hfirst]
    refine Parser.repeating_again hround ?_
      (Parser.repeating_finish (nextOperand_finish hbelow (Nat.zero_le _)))
    simp only [List.length_cons, List.length_append]
    omega
  have hmore := binary_more hbelow hrow operator.precedence (by omega)
  rw [List.append_assoc, List.cons_append]
  rwa [show count + 1 + operator.precedence = 7 by omega] at hmore

end Operations

section Operands

variable {inside : Option Layer} {literals : Bool} {row : List Lexeme} {value : Expression}
  {follows : List Lexeme → Prop}

/-- Where no access to a scope is next, an operand ends. -/
theorem nextAccess_finish {rest : List Lexeme} (hrest : NotMark ["::"] rest) (scope : Expression) :
    Parser.nextAccess inside scope rest = .done (.finish scope) rest [] := by
  unfold Parser.nextAccess
  rw [Parser.accept_bind, hrest]
  rfl

/-- A primary expression is an operand where no access to its scope follows. -/
theorem operand_reads (hprimary : (Parser.primary inside literals).Reads row value follows) :
    (Parser.operand inside literals).Reads row value
      fun rest => follows rest ∧ NotMark ["::"] rest := by
  intro rest hrest
  unfold Parser.operand
  rw [hprimary.run _ hrest.1]
  exact Parser.repeating_finish (nextAccess_finish hrest.2 value)

/-- An operand is an expression where nothing follows that continues one. -/
theorem expression_reads_of_operand (hoperand :
    (Parser.operand inside literals).Reads row value Ends) :
    (Parser.expression inside literals).Reads row value Ends :=
  fun rest hrest => @binary_more _ 0 0 _ _ _ _ (hrest.operatorsBelow 0) (hoperand rest hrest) 7
    (by omega)

/-- A primary expression is an expression where nothing follows that continues one. -/
theorem expression_reads_of_primary (hprimary :
    (Parser.primary inside literals).Reads row value Ends) :
    (Parser.expression inside literals).Reads row value Ends :=
  expression_reads_of_operand fun rest hrest =>
    operand_reads hprimary rest ⟨hrest, hrest.notMark (by decide)⟩

/-- A primary expression is an expression where no access to its scope and no operator follows. -/
theorem expression_of_primary {unread rest : List Lexeme} {reports : List Report}
    (hprimary : Parser.primary inside literals unread = .done value rest reports)
    (hscope : NotMark ["::"] rest) (hbelow : OperatorsBelow 0 rest) :
    Parser.expression inside literals unread = .done value rest reports := by
  have hoperand : Parser.operand inside literals unread = .done value rest reports :=
    Parser.bind_of_done_silent hprimary (Parser.repeating_finish (nextAccess_finish hscope value))
  exact @binary_more _ 0 0 _ _ _ _ hbelow hoperand 7 (by omega)

/-- What begins with a mark is read by that mark. -/
theorem primary_mark (text : String) (rest : List Lexeme) :
    Parser.primary inside literals (mark text :: rest) =
      Parser.marked inside literals text (mark text :: rest) :=
  Parser.primary_isMark (mark_isMark text) rest

/-- What begins with a name is read by that name, unless the name is a truth value. -/
theorem primary_identifier {text : String} (hplain : isPlainName text = true) (rest : List Lexeme) :
    Parser.primary inside literals (identifier text :: rest) =
      Parser.named inside literals text rest := by
  have hnot : ¬(text = "true" ∨ text = "false") := by
    simpa [isPlainName, not_or] using hplain
  unfold Parser.primary
  rw [Parser.peek_bind]
  simp only [List.head?_cons, identifier, if_neg hnot, if_true]
  rw [Parser.advance_bind, List.tail_cons]

/-- A numeral is read as the number that it is read for. -/
theorem primary_number {text : String} {value : Number} (hread : Numeral.read text = .ok value)
    (rest : List Lexeme) :
    Parser.primary inside literals (⟨.number, text⟩ :: rest) = .done (.number value) rest [] := by
  have hnumeral : Parser.numeral text (⟨.number, text⟩ :: rest) = .done value rest [] := by
    simp only [Parser.numeral, hread, List.tail_cons]
  unfold Parser.primary
  rw [Parser.peek_bind]
  exact Parser.bind_of_silent _ hnumeral

/-- An expression between parentheses is read as a primary expression. -/
theorem primary_parenthesized {opening closing : Lexeme} {value : Expression}
    {unread rest : List Lexeme} (hopening : opening.isMarkOf ["("] = true)
    (hclosing : closing.isMarkOf [")"] = true) (hunread : NotMark [")"] unread)
    (hread : Parser.expression (layerInside options levels) true unread =
      .done value (closing :: rest) []) :
    Parser.primary (layerInside options (levels + 1)) literals (opening :: unread) =
      .done value rest [] := by
  rw [Parser.primary_group hopening hunread]
  unfold Parser.group
  rw [nested_layerInside, Layer.around, Parser.advance_bind, List.tail_cons,
    Parser.bind_of_silent _ hread, Parser.bind_of_silent _ (Parser.expectMark_cons hclosing rest)]
  rfl

end Operands

section Forms

variable {literals : Bool}

/-- An expression in parentheses is read as a primary expression, whatever follows. -/
theorem group_reads {value : Expression} (hvalue : value.IsRead options worded levels)
    (hprintable : value.isPrintable options = true) :
    (Parser.primary (layerInside options (levels + 1)) literals).Reads
      (Printing.enclosed "(" ")" (Printing.expression worded value)) value fun _ => True := by
  intro rest _
  have hclosing : Ends (mark ")" :: rest) := ⟨")", by decide, rest, rfl⟩
  have hnot : NotMark [")"] (Printing.expression worded value ++ mark ")" :: rest) :=
    ((Printing.begins_expression hprintable).mono (by decide)).notMark _
  rw [Printing.enclosed, List.cons_append, List.append_assoc, List.singleton_append]
  exact primary_parenthesized (by simp) (by simp) hnot (hvalue _ hclosing)

/-- An expression in parentheses is read as an operand where no access to its scope follows. -/
theorem group_reads_operand {value : Expression} (hvalue : value.IsRead options worded levels)
    (hprintable : value.isPrintable options = true) :
    (Parser.operand (layerInside options (levels + 1)) literals).Reads
      (Printing.enclosed "(" ")" (Printing.expression worded value)) value (NotMark ["::"]) :=
  fun rest hrest => operand_reads (group_reads hvalue hprintable) rest ⟨trivial, hrest⟩

/-- An expression in parentheses is read as an expression where a brace follows, even where no
struct literal may begin. -/
theorem condition_reads {value : Expression} (hvalue : value.IsRead options worded levels)
    (hprintable : value.isPrintable options = true) :
    (Parser.expression (layerInside options (levels + 1)) literals).Reads
      (Printing.enclosed "(" ")" (Printing.expression worded value)) value
      fun rest => ∃ behind, rest = mark "\x7b" :: behind := by
  rintro _ ⟨behind, rfl⟩
  have hbrace : (mark "\x7b").isMarkOf ["\x7b"] = true := by simp
  exact expression_of_primary (group_reads hvalue hprintable _ trivial) (by simp [NotMark])
    (operatorsBelow_of_isMarkOf hbrace (by decide) 0 behind)

/-- Expressions are printed one by one. -/
theorem Printing.expressions_eq_map (items : List Expression) :
    expressions worded items = items.map (expression worded) := by
  induction items with
  | nil => rfl
  | cons first rest ih => rw [expressions, ih, List.map_cons]

/-- A list of expressions is read up to a closing mark. -/
theorem items_read {items : List Expression} {closing : String} (rest : List Lexeme)
    (hitems : ∀ item ∈ items, item.IsRead options worded levels)
    (hprintable : ∀ item ∈ items, item.isPrintable options = true) (hclosing : closing ∈ endings)
    (hmark : closing ≠ ",") :
    Parser.listed (Parser.expression (layerInside options levels) true) closing
        (Printing.separated (Printing.expressions worded items) ++ mark closing :: rest) =
      .done items (mark closing :: rest) [] := by
  rw [Printing.expressions_eq_map]
  exact Parser.listed_reads hitems
    (fun item hitem => (Printing.begins_expression (hprintable item hitem)).mono
      (by simpa using hclosing))
    (fun behind => ⟨",", by decide, behind, rfl⟩) ⟨closing, hclosing, rest, rfl⟩ hmark

/-- The arguments of a call are read from what they are printed as. -/
theorem arguments_read {items : List Expression}
    (hitems : ∀ item ∈ items, item.IsRead options worded levels)
    (hprintable : ∀ item ∈ items, item.isPrintable options = true) :
    (Parser.arguments (layerInside options (levels + 1))).Reads
      (Printing.enclosed "(" ")" (Printing.separated (Printing.expressions worded items))) items
      fun _ => True := by
  intro rest _
  unfold Parser.arguments
  rw [nested_layerInside, Layer.around, Printing.enclosed, List.cons_append, List.append_assoc,
    List.singleton_append, Parser.advance_bind, List.tail_cons,
    Parser.bind_of_silent _ (items_read rest hitems hprintable (by decide) (by decide)),
    Parser.expectMark_bind_mark]
  rfl

/-- An array is read from what it is printed as. -/
theorem array_reads {items : List Expression}
    (hitems : ∀ item ∈ items, item.IsRead options worded levels)
    (hprintable : ∀ item ∈ items, item.isPrintable options = true) :
    (Expression.array items).IsRead options worded (levels + 1) := by
  refine expression_reads_of_primary fun rest _ => ?_
  rw [Printing.expression, Printing.enclosed, List.cons_append, List.append_assoc,
    List.singleton_append, primary_mark]
  unfold Parser.marked Parser.array
  rw [if_neg (by decide), if_pos rfl, nested_layerInside, Layer.around, Parser.advance_bind,
    List.tail_cons, Parser.bind_of_silent _
      (items_read rest hitems hprintable (by decide) (by decide)),
    Parser.expectMark_bind_mark]
  rfl

/-- A unary operation is read from what it is printed as. -/
theorem unary_reads {operator : UnaryOperator} {value : Expression}
    (hvalue : value.IsRead options worded levels) (hprintable : value.isPrintable options = true) :
    (Expression.unary operator value).IsRead options worded (levels + 2) := by
  refine expression_reads_of_primary fun rest hrest => ?_
  have hoperand := @group_reads_operand _ _ _ true _ hvalue hprintable rest
    (hrest.notMark (by decide))
  have hmark : operator.spelling ≠ "(" ∧ operator.spelling ≠ "[" := by cases operator <;> decide
  rw [Printing.expression, List.cons_append, primary_mark]
  unfold Parser.marked
  rw [if_neg hmark.1, if_neg hmark.2, operator.ofSpelling?_spelling]
  change Parser.unary (layerInside options (levels + 2)) true operator _ = _
  unfold Parser.unary
  rw [nested_layerInside, Layer.around, Parser.advance_bind, List.tail_cons,
    Parser.bind_of_silent _ hoperand]
  rfl

/-- An access to the scope of an expression is read from what it is printed as. -/
theorem member_reads {scope : Expression} {name : String}
    (hscope : scope.IsRead options worded levels) (hprintable : scope.isPrintable options = true) :
    (Expression.member scope name).IsRead options worded (levels + 1) := by
  refine expression_reads_of_operand fun rest hrest => ?_
  have hround : Parser.nextAccess (layerInside options (levels + 1)) scope
      (mark "::" :: identifier name :: rest) = .done (.again (.member scope name)) rest [] := by
    have hnot : NotMark ["("] rest := hrest.notMark (by decide)
    unfold Parser.nextAccess
    rw [Parser.accept_bind, if_pos (by simp), List.tail_cons]
    simp only [if_true]
    rw [Parser.identifier_bind_identifier, Parser.nextIsMark_bind, hnot]
    rfl
  rw [Printing.expression, List.append_assoc]
  unfold Parser.operand
  rw [(group_reads hscope hprintable).run _ trivial]
  refine Parser.repeating_again hround ?_
    (Parser.repeating_finish (nextAccess_finish (hrest.notMark (by decide)) _))
  simp only [List.cons_append, List.nil_append, List.length_cons]
  omega

/-- A call in the scope of an expression is read from what it is printed as. -/
theorem memberCall_reads {scope : Expression} {name : String} {items : List Expression}
    (hscope : scope.IsRead options worded levels) (hprintable : scope.isPrintable options = true)
    (hitems : ∀ item ∈ items, item.IsRead options worded levels)
    (hprintables : ∀ item ∈ items, item.isPrintable options = true) :
    (Expression.memberCall scope name items).IsRead options worded (levels + 1) := by
  refine expression_reads_of_operand fun rest hrest => ?_
  have hround : Parser.nextAccess (layerInside options (levels + 1)) scope
      (mark "::" :: identifier name ::
        (Printing.enclosed "(" ")" (Printing.separated (Printing.expressions worded items)) ++
          rest)) =
      .done (.again (.memberCall scope name items)) rest [] := by
    unfold Parser.nextAccess
    rw [Parser.accept_bind, if_pos (by simp), List.tail_cons]
    simp only [if_true]
    rw [Parser.identifier_bind_identifier, Parser.nextIsMark_bind,
      if_pos (by simp [Printing.enclosed]),
      (arguments_read hitems hprintables).run _ trivial]
    rfl
  rw [Printing.expression, List.append_assoc]
  unfold Parser.operand
  rw [(group_reads hscope hprintable).run _ trivial]
  refine Parser.repeating_again hround ?_
    (Parser.repeating_finish (nextAccess_finish (hrest.notMark (by decide)) _))
  simp only [List.cons_append, List.length_cons, List.length_append]
  omega

/-- A name is read with its type arguments, and what stands behind them decides what it is. -/
theorem named_reads {name : Name} (hprintable : name.isPrintable = true)
    (hlevels : TypeExpr.argumentLevels name.typeArguments ≤ levels) {rest : List Lexeme}
    (hrest : NotMark ["\x7b", "<"] rest) :
    Parser.primary (layerInside options levels) true (Printing.named name ++ rest) =
      Parser.called (layerInside options levels) name rest := by
  obtain ⟨text, arguments⟩ := name
  simp only [Name.isPrintable, Bool.and_eq_true, Bool.or_eq_true, List.isEmpty_iff] at hprintable
  rw [Printing.named, List.cons_append, primary_identifier hprintable.1]
  unfold Parser.named
  cases arguments with
  | nil =>
    have hbrace : rest.head?.any (·.isMarkOf ["\x7b"]) = false := hrest.mono (by simp)
    have hangle : rest.head?.any (·.isMarkOf ["<"]) = false := hrest.mono (by simp)
    rw [Printing.typeArguments, List.nil_append, Parser.nextIsMark_bind, hbrace, Bool.and_false,
      if_neg (by simp), Parser.nextAreTypeArguments_bind, hangle]
    rfl
  | cons first others =>
    have hgeneric : Parser.isGenericName text = true := by simpa using hprintable.2
    have hword : ((Printing.enclosed "<" ">"
        (Printing.separated ((first :: others).map Printing.type)) ++ rest)[1]?).any Lexeme.isWord =
          true := by
      obtain ⟨name, types⟩ := first
      rw [Printing.separated_cons]
      rfl
    have hread := @typeArguments_reads_of_levels options _ _ rest
      (List.cons_ne_nil first others) hlevels
    rw [Printing.typeArguments_cons, Parser.nextIsMark_bind]
    rw [if_neg (by simp [Printing.enclosed]), Parser.nextAreTypeArguments_bind, hword, hgeneric,
      if_pos (by simp [Printing.enclosed]), Parser.advance_bind, Printing.enclosed,
        List.cons_append,
      List.tail_cons, List.append_assoc, List.singleton_append, Parser.bind_of_silent _ hread]

/-- A name is read from what it is printed as. -/
theorem name_reads {name : Name} (hprintable : name.isPrintable = true)
    (hlevels : TypeExpr.argumentLevels name.typeArguments ≤ levels) :
    (Expression.name name).IsRead options worded levels := by
  refine expression_reads_of_primary fun rest hrest => ?_
  have hopening : NotMark ["("] rest := hrest.notMark (by decide)
  rw [Printing.expression, named_reads hprintable hlevels (hrest.notMark (by decide))]
  unfold Parser.called
  rw [Parser.nextIsMark_bind, hopening]
  rfl

/-- A call is read from what it is printed as. -/
theorem call_reads {callee : Name} {items : List Expression}
    (hprintable : callee.isPrintable = true)
    (hlevels : TypeExpr.argumentLevels callee.typeArguments ≤ levels + 1)
    (hitems : ∀ item ∈ items, item.IsRead options worded levels)
    (hprintables : ∀ item ∈ items, item.isPrintable options = true) :
    (Expression.call callee items).IsRead options worded (levels + 1) := by
  refine expression_reads_of_primary fun rest _ => ?_
  rw [Printing.expression, List.append_assoc,
    named_reads hprintable hlevels (by simp [NotMark, Printing.enclosed])]
  unfold Parser.called
  rw [Parser.nextIsMark_bind, if_pos (by simp [Printing.enclosed]),
    (arguments_read hitems hprintables).run _ trivial]
  rfl

/-- How a field of a struct literal is printed. -/
def Printing.field (worded : String → Bool) (field : String × Expression) : List Lexeme :=
  identifier field.1 :: mark ":" :: expression worded field.2

/-- Fields are printed one by one. -/
theorem Printing.fields_eq_map (given : List (String × Expression)) :
    fields worded given = given.map (field worded) := by
  induction given with
  | nil => rfl
  | cons first rest ih =>
    obtain ⟨name, value⟩ := first
    rw [fields, ih, List.map_cons]
    rfl

/-- A struct literal is read from what it is printed as. -/
theorem structLiteral_reads {name : String} {given : List (String × Expression)}
    (hplain : isPlainName name = true) (hnodup : (given.map Prod.fst).Nodup)
    (hvalues : ∀ field ∈ given, field.2.IsRead options worded levels) :
    (Expression.structLiteral name given).IsRead options worded (levels + 1) := by
  refine expression_reads_of_primary fun rest _ => ?_
  have hfield (before : List (String × Expression)) (field : String × Expression)
      (after : List (String × Expression)) (hsplit : given = before ++ field :: after) :
      (Parser.literalField (.around options (layerInside options levels)) name before.reverse).Reads
        (Printing.field worded field) field Ends := by
    have hnew : before.reverse.any (·.1 == field.1) = false := by
      rw [hsplit, List.map_append, List.map_cons] at hnodup
      have hdistinct := (List.nodup_append.mp hnodup).2.2
      simp only [List.any_reverse, List.any_eq_false, beq_iff_eq]
      intro other hother
      exact hdistinct _ (List.mem_map_of_mem hother) _ List.mem_cons_self
    have hvalue := hvalues field (by rw [hsplit]; exact List.mem_append_right _ List.mem_cons_self)
    intro behind hbehind
    rw [Printing.field, List.cons_append, List.cons_append,
      Parser.literalField_isIdentifier (identifier_kind _), identifier_text, hnew, if_neg (by simp),
      if_pos (by simp), List.tail_cons]
    exact Parser.map_of_done _ (hvalue _ hbehind)
  have hread := @Parser.upTo_reads _ _ _ _ _ rest _ [","] (by simp) (by simp)
    (fun behind => ⟨",", by decide, behind, rfl⟩) ⟨"\x7d", by decide, rest, rfl⟩ hfield
    (fun field _ => ⟨_, _, rfl, rfl⟩)
  rw [Printing.expression, List.cons_append, primary_identifier hplain, Printing.fields_eq_map,
    Printing.enclosed, List.cons_append, List.append_assoc, List.singleton_append]
  unfold Parser.named
  rw [Parser.nextIsMark_bind, if_pos (by simp)]
  unfold Parser.structLiteral
  rw [nested_layerInside, Parser.advance_bind, List.tail_cons, Parser.bind_of_silent _ hread,
    Parser.expectMark_bind_mark]
  rfl

/-- A truth value is read from what it is printed as. -/
theorem boolean_reads (value : Bool) : (Expression.boolean value).IsRead options worded levels := by
  refine expression_reads_of_primary fun rest _ => ?_
  cases value <;> rfl

/-- A quoted text is read from what it is printed as. -/
theorem string_reads (text : String) : (Expression.string text).IsRead options worded levels :=
  expression_reads_of_primary fun _ _ => rfl

end Forms

end BraceLang
