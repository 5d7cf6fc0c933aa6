import BraceLang.Parser.Session
import BraceLang.Proofs.Precedence.Arrangements
import BraceLang.Proofs.Printing.Expressions
import BraceLang.Proofs.Recovery.Resynchronisation

/-!
# Reading rows of operands

A row of operands with binary operators between them is read up to the first operator that does not
bind tighter than a minimum, and comes to the ordered arrangement of what is read. The operands are
literals, names that take no type arguments, and rows in parentheses, which are read as rows of
their own with no minimum.

The rows of operators of one precedence are read by a loop. What carries it is that the arrangement
held so far is ordered, that its operators bind at least as tightly as that precedence, and that the
next one, if there is any, binds no tighter.
-/

namespace BraceLang

/-- What stands between the operators of a row: a literal, a name, or a row in parentheses. -/
inductive Operand where
  | number (text : String)
  | string (text : String)
  | name (text : String)
  | group (first : Operand) (rest : List (BinaryOperator × Operand))

section Spelling

mutual

/-- An operand in which parentheses stand in one another so many times at most is spelled by a row
of lexemes. -/
inductive Operand.Spells : Nat → Operand → List Lexeme → Prop
  | number {levels : Nat} {text : String} {value : Number} : Numeral.read text = .ok value →
    Operand.Spells levels (.number text) [⟨.number, text⟩]
  | string {levels : Nat} (text : String) : Operand.Spells levels (.string text) [⟨.string, text⟩]
  | name {levels : Nat} {text : String} : Parser.isGenericName text = false →
    Operand.Spells levels (.name text) [⟨.identifier, text⟩]
  | group {levels : Nat} {opening closing : Lexeme} {first : Operand}
    {rest : List (BinaryOperator × Operand)} {firstRow restRow : List Lexeme} :
    opening.isMarkOf ["("] = true → Operand.Spells levels first firstRow →
    Operand.RestSpells levels rest restRow → closing.isMarkOf [")"] = true →
    Operand.Spells (levels + 1) (.group first rest) (opening :: (firstRow ++ (restRow ++ [closing])))

/-- Operands, each behind its operator, are spelled by a row of lexemes. -/
inductive Operand.RestSpells : Nat → List (BinaryOperator × Operand) → List Lexeme → Prop
  | nil {levels : Nat} : Operand.RestSpells levels [] []
  | cons {levels : Nat} {operator : BinaryOperator} {mark : Lexeme} {operand : Operand}
    {rest : List (BinaryOperator × Operand)} {row restRow : List Lexeme} :
    mark.isMarkOf [operator.spelling] = true → Operand.Spells levels operand row →
    Operand.RestSpells levels rest restRow →
    Operand.RestSpells levels ((operator, operand) :: rest) (mark :: (row ++ restRow))

end

end Spelling

mutual

/-- The expression that an operand stands for. A row in parentheses stands for what its ordered
arrangement does. -/
inductive Operand.Means : Operand → Expression → Prop
  | number {text : String} {value : Number} : Numeral.read text = .ok value →
    Operand.Means (.number text) (.number value)
  | string (text : String) : Operand.Means (.string text) (.string text)
  | truth {text : String} : text = "true" ∨ text = "false" →
    Operand.Means (.name text) (.boolean (text == "true"))
  | name {text : String} : ¬(text = "true" ∨ text = "false") →
    Operand.Means (.name text) (.name ⟨text, []⟩)
  | group {arrangement : Arrangement Operand} {first : Operand}
    {rest : List (BinaryOperator × Operand)} {value : Expression} :
    arrangement.Arranges first rest → Arrangement.Means arrangement value →
    Operand.Means (.group first rest) value

/-- The expression that an arrangement of operands stands for. -/
inductive Arrangement.Means : Arrangement Operand → Expression → Prop
  | operand {operand : Operand} {value : Expression} : Operand.Means operand value →
    Arrangement.Means (.operand operand) value
  | operation {left right : Arrangement Operand} {operator : BinaryOperator}
    {leftValue rightValue : Expression} : Arrangement.Means left leftValue →
    Arrangement.Means right rightValue →
    Arrangement.Means (.operation left operator right) (.binary leftValue operator rightValue)

end

mutual

/-- An operand stands for one expression only. -/
theorem Operand.Means.unique {operand : Operand} {value other : Expression} :
    operand.Means value → operand.Means other → value = other
  | .number hvalue, .number hother => congrArg _ (Except.ok.inj (hvalue.symm.trans hother))
  | .string _, .string _ => rfl
  | .truth _, .truth _ => rfl
  | .truth htruth, .name hname => absurd htruth hname
  | .name hname, .truth htruth => absurd htruth hname
  | .name _, .name _ => rfl
  | .group hone hvalue, .group htwo hother =>
    Arrangement.Means.unique hvalue (hone.unique htwo ▸ hother)

/-- An arrangement of operands stands for one expression only. -/
theorem Arrangement.Means.unique {arrangement : Arrangement Operand} {value other : Expression} :
    arrangement.Means value → arrangement.Means other → value = other
  | .operand hvalue, .operand hother => Operand.Means.unique hvalue hother
  | .operation hleft hright, .operation hleft' hright' => by
    rw [Arrangement.Means.unique hleft hleft', Arrangement.Means.unique hright hright']

end

section Continuations

/-- The marks that may stand behind an operand of a row. -/
def rowMarks : List String := ";" :: ")" :: BinaryOperator.all.map BinaryOperator.spelling

/-- What follows an operand of a row begins with an operator, or with a mark that ends the row. -/
def RowContinues (rest : List Lexeme) : Prop := rest.head?.any (·.isMarkOf rowMarks) = true

/-- What follows a row begins with a mark that ends it. -/
def RowEnds (rest : List Lexeme) : Prop := rest.head?.any (·.isMarkOf [";", ")"]) = true

/-- Behind an operand there is no mark that belongs to it. -/
theorem RowContinues.notMark {rest : List Lexeme} {marks : List String} (hrest : RowContinues rest)
    (hmarks : ∀ mark ∈ rowMarks, mark ∉ marks) : NotMark marks rest := by
  obtain ⟨lexeme, behind, rfl, hlexeme⟩ := Parser.exists_cons_of_head_any hrest
  exact Lexeme.isMarkOf_disjoint hlexeme hmarks

/-- What ends a row may stand behind its last operand. -/
theorem RowEnds.continues {rest : List Lexeme} (hrest : RowEnds rest) : RowContinues rest := by
  obtain ⟨lexeme, behind, rfl, hlexeme⟩ := Parser.exists_cons_of_head_any hrest
  exact Lexeme.isMarkOf_subset hlexeme (by decide)

/-- An operator and the operands behind it may stand behind an operand, and so may what ends the
row. -/
theorem Operand.RestSpells.continues {levels : Nat} {rest : List (BinaryOperator × Operand)}
    {row tail : List Lexeme} (hspelled : Operand.RestSpells levels rest row)
    (htail : RowEnds tail) : RowContinues (row ++ tail) := by
  cases hspelled with
  | nil => exact htail.continues
  | @cons _ operator mark _ _ _ _ hmark =>
    exact Lexeme.isMarkOf_subset hmark (by cases operator <;> decide)

/-- An operand begins with no mark that closes something. -/
theorem Operand.Spells.not_closing {levels : Nat} {operand : Operand} {row : List Lexeme}
    (hspelled : operand.Spells levels row) (rest : List Lexeme) : NotMark [")"] (row ++ rest) := by
  cases hspelled with
  | number | string | name => rfl
  | group hopening => exact Lexeme.isMarkOf_disjoint hopening (by decide)

end Continuations

section Loop

/-- A parser reads the operands of a row. -/
def Parser.ReadsOperands (operand : Parser Expression) (levels : Nat) : Prop :=
  ∀ ⦃item : Operand⦄ ⦃row : List Lexeme⦄, item.Spells levels row → ∀ rest, RowContinues rest →
    ∃ value, item.Means value ∧ operand (row ++ rest) = .done value rest []

/-- What is left of a row begins with no operator that binds as tightly as a bound. -/
def LooserThan (bound : Nat) (rest : List (BinaryOperator × Operand)) : Prop :=
  ∀ entry ∈ rest.head?, entry.1.precedence < bound

/-- A reply is what a row comes to of which the operators are read that bind from a bound on: the
ordered arrangement of a part, behind which the rest is unread. -/
def Reply.Arranged (reply : Reply Expression) (levels bound : Nat) (first : Operand)
    (rest : List (BinaryOperator × Operand)) (row tail : List Lexeme) : Prop :=
  ∃ (arrangement : Arrangement Operand) (value : Expression)
    (left : List (BinaryOperator × Operand)) (leftRow : List Lexeme),
    arrangement.Arranges first arrangement.rest ∧ arrangement.BindsFrom bound ∧
    arrangement.Means value ∧ arrangement.rest ++ left = rest ∧ LooserThan bound left ∧
    Operand.RestSpells levels left leftRow ∧ leftRow <:+ row ∧
    reply = .done value (leftRow ++ tail) []

variable {operand : Parser Expression} {levels count : Nat} {tail : List Lexeme}

/-- A row whose next operator does not bind tightly enough is not read on. -/
private theorem operatorsBelow_of_looser {bound : Nat} {rest : List (BinaryOperator × Operand)}
    {row : List Lexeme} (hspelled : Operand.RestSpells levels rest row) (htail : RowEnds tail)
    (hlooser : LooserThan bound rest) : OperatorsBelow bound (row ++ tail) := by
  cases hspelled with
  | nil =>
    obtain ⟨lexeme, behind, rfl, hlexeme⟩ := Parser.exists_cons_of_head_any htail
    exact operatorsBelow_of_isMarkOf hlexeme (by decide) bound behind
  | cons hmark => exact operatorsBelow_of_precedence hmark (hlooser _ rfl) _

/-- The loop for one precedence puts the operators of that precedence over what is held, each with
the row of tighter operators behind it. -/
private theorem repeating_arranged (hcount : count < 7)
    (hread : ∀ {first rest firstRow restRow}, Operand.Spells levels first firstRow →
      Operand.RestSpells levels rest restRow →
      (Parser.binary operand count (firstRow ++ (restRow ++ tail))).Arranged levels (7 - count) first
        rest restRow tail)
    (htail : RowEnds tail) {held : Arrangement Operand} {value : Expression}
    (hordered : held.Ordered) (hbinds : held.BindsFrom (6 - count)) (hvalue : held.Means value)
    {rest : List (BinaryOperator × Operand)} {row : List Lexeme}
    (hspelled : Operand.RestSpells levels rest row) (hlooser : LooserThan (7 - count) rest) :
    (Parser.repeating (Parser.nextOperand (Parser.binary operand count) (6 - count)) value
      (row ++ tail)).Arranged levels (6 - count) held.first (held.rest ++ rest) row tail := by
  induction hlength : rest.length using Nat.strong_induction_on
    generalizing held value rest row with
  | h length ih =>
    by_cases hends : LooserThan (6 - count) rest
    · have hbelow := operatorsBelow_of_looser hspelled htail hends
      exact ⟨held, value, rest, row, ⟨rfl, rfl, hordered⟩, hbinds, hvalue, rfl, hends, hspelled,
        List.suffix_rfl, Parser.repeating_finish (nextOperand_finish hbelow le_rfl)⟩
    · cases hspelled with
      | nil => exact absurd (fun entry hentry => by cases hentry) hends
      | @cons _ operator mark item rest itemRow restRow hmark hitem hrest =>
        have hprecedence : operator.precedence = 6 - count := by
          have hless : operator.precedence < 7 - count := hlooser _ rfl
          have hnot : ¬operator.precedence < 6 - count := fun hlt => hends (by
            rintro entry hentry
            obtain rfl := Option.some.inj hentry
            exact hlt)
          omega
        obtain ⟨right, rightValue, left, leftRow, hright, hrightBinds, hrightValue, hrightRest,
          hleftLooser, hleft, hsuffix, hreply⟩ := hread hitem hrest
        have hround : Parser.nextOperand (Parser.binary operand count) (6 - count) value
            (mark :: (itemRow ++ restRow) ++ tail) =
            .done (.again (.binary value operator rightValue)) (leftRow ++ tail) [] := by
          rw [← hprecedence, List.cons_append, List.append_assoc]
          exact nextOperand_again hmark hreply value
        have hshorter : left.length < length := by
          rw [← hlength, List.length_cons, ← hrightRest, List.length_append]
          omega
        -- What is held now stands on the left of the operator.
        have hheldOrdered : (Arrangement.operation held operator right).Ordered :=
          ⟨⟨hprecedence ▸ hbinds, hordered⟩, hrightBinds.mono (by omega), hright.ordered⟩
        have hheldValue : (Arrangement.operation held operator right).Means
            (.binary value operator rightValue) := .operation hvalue hrightValue
        obtain ⟨whole, wholeValue, unread, unreadRow, hwhole, hwholeBinds, hwholeValue, hwholeRest,
          hunreadLooser, hunread, hunreadSuffix, hlater⟩ :=
          ih left.length hshorter hheldOrdered (Nat.le_of_eq hprecedence.symm) hheldValue hleft
            hleftLooser rfl
        have hpassed : leftRow <:+ mark :: (itemRow ++ restRow) :=
          hsuffix.trans ((List.suffix_append _ _).trans (List.suffix_cons _ _))
        refine ⟨whole, wholeValue, unread, unreadRow, hwhole, hwholeBinds, hwholeValue, ?_,
          hunreadLooser, hunread, hunreadSuffix.trans hpassed,
          Parser.repeating_again hround ?_ hlater⟩
        · rw [hwholeRest, Arrangement.rest, hright.first_eq, ← hrightRest]
          simp
        · have hle := hsuffix.length_le
          simp only [List.length_append, List.length_cons]
          omega

/-- A row is read as the rows of the tighter operators in it, up to the first operator that does not
bind from the bound on. -/
theorem binary_arranged (hoperand : operand.ReadsOperands levels) (htail : RowEnds tail)
    (hcount : count ≤ 7) {first : Operand} {rest : List (BinaryOperator × Operand)}
    {firstRow restRow : List Lexeme} (hfirst : first.Spells levels firstRow)
    (hrest : Operand.RestSpells levels rest restRow) :
    (Parser.binary operand count (firstRow ++ (restRow ++ tail))).Arranged levels (7 - count) first
      rest restRow tail := by
  induction count generalizing first rest firstRow restRow with
  | zero =>
    obtain ⟨value, hvalue, hread⟩ := hoperand hfirst _ (hrest.continues htail)
    have hlooser : LooserThan 7 rest := fun entry _ => entry.1.precedence_lt
    exact ⟨.operand first, value, rest, restRow, ⟨rfl, rfl, trivial⟩, trivial, .operand hvalue, rfl,
      hlooser, hrest, List.suffix_rfl, hread⟩
  | succ count ih =>
    obtain ⟨held, value, left, leftRow, hheld, hbinds, hvalue, hheldRest, hlooser, hleft, hsuffix,
      hread⟩ := ih (by omega) hfirst hrest
    obtain ⟨whole, wholeValue, unread, unreadRow, hwhole, hwholeBinds, hwholeValue, hwholeRest,
      hunreadLooser, hunread, hunreadSuffix, hlater⟩ :=
      repeating_arranged (by omega) (ih (by omega)) htail hheld.ordered (hbinds.mono (by omega))
        hvalue hleft hlooser
    have hbound : 7 - (count + 1) = 6 - count := by omega
    rw [hbound]
    refine ⟨whole, wholeValue, unread, unreadRow, hheld.first_eq ▸ hwhole, hwholeBinds, hwholeValue,
      hwholeRest.trans hheldRest, hunreadLooser, hunread, hunreadSuffix.trans hsuffix, ?_⟩
    change (Parser.binary operand count >>= _) _ = _
    rw [Parser.bind_of_silent _ hread, hlater]

end Loop

section Operands

variable {options : Options} {levels : Nat} {literals : Bool}

/-- A row is read as an expression one level further out than its operands. -/
private theorem row_reads {tail : List Lexeme}
    (hoperand : (Parser.operand (layerInside options levels) true).ReadsOperands levels)
    {first : Operand} {rest : List (BinaryOperator × Operand)} {firstRow restRow : List Lexeme}
    (hfirst : first.Spells levels firstRow) (hrest : Operand.RestSpells levels rest restRow)
    (htail : RowEnds tail) :
    ∃ (arrangement : Arrangement Operand) (value : Expression),
      arrangement.Arranges first rest ∧ arrangement.Means value ∧
      Parser.expression (layerInside options levels) true (firstRow ++ (restRow ++ tail)) =
        .done value tail [] := by
  obtain ⟨arrangement, value, left, leftRow, harranges, -, hvalue, hall, hlooser, hleft, -,
    hread⟩ := binary_arranged hoperand htail le_rfl hfirst hrest
  cases hleft with
  | nil =>
    rw [List.append_nil] at hall
    exact ⟨arrangement, value, hall ▸ harranges, hvalue, hread⟩
  | cons => exact absurd (hlooser _ rfl) (by simp)

/-- A primary expression is an operand of a row. -/
private theorem primary_reads
    (hgroup : ∀ {fewer}, levels = fewer + 1 →
      (Parser.operand (layerInside options fewer) true).ReadsOperands fewer) :
    (Parser.primary (layerInside options levels) literals).ReadsOperands levels := by
  intro operand row hspelled rest hrest
  cases hspelled with
  | @number _ text value hread => exact ⟨.number value, .number hread, primary_number hread rest⟩
  | string text => exact ⟨.string text, .string text, rfl⟩
  | @name _ text hname =>
    by_cases htruth : text = "true" ∨ text = "false"
    · refine ⟨_, .truth htruth, ?_⟩
      unfold Parser.primary
      rw [List.cons_append, Parser.peek_bind]
      simp only [List.head?_cons, if_pos htruth]
      rfl
    · have hbrace : NotMark ["\x7b"] rest := hrest.notMark (by decide)
      have hopening : NotMark ["("] rest := hrest.notMark (by decide)
      refine ⟨_, .name htruth, ?_⟩
      rw [List.cons_append, List.nil_append]
      change Parser.primary _ literals (Lexeme.identifier text :: rest) = _
      rw [primary_identifier (by simpa [isPlainName, not_or] using htruth)]
      unfold Parser.named
      rw [Parser.nextIsMark_bind, hbrace, Bool.and_false, if_neg (by simp),
        Parser.nextAreTypeArguments_bind, hname, Bool.and_false, if_neg (by simp)]
      unfold Parser.called
      rw [Parser.nextIsMark_bind, hopening]
      rfl
  | @group fewer opening closing first inner firstRow restRow hopening hfirst hinner hclosing =>
    have htail : RowEnds (closing :: rest) := Lexeme.isMarkOf_subset hclosing (by decide)
    obtain ⟨arrangement, value, harranges, hvalue, hread⟩ :=
      row_reads (hgroup rfl) hfirst hinner htail
    have hnot := hfirst.not_closing (restRow ++ closing :: rest)
    refine ⟨value, .group harranges hvalue, ?_⟩
    simp only [List.cons_append, List.append_assoc, List.nil_append]
    exact primary_parenthesized hopening hclosing hnot hread

/-- No access to the scope of an operand of a row follows. -/
private theorem operand_of_primary {inside : Option Layer}
    (hprimary : (Parser.primary inside literals).ReadsOperands levels) :
    (Parser.operand inside literals).ReadsOperands levels := by
  intro operand row hspelled rest hrest
  obtain ⟨value, hvalue, hread⟩ := hprimary hspelled rest hrest
  refine ⟨value, hvalue, ?_⟩
  unfold Parser.operand
  rw [Parser.bind_of_silent _ hread]
  exact Parser.repeating_finish (nextAccess_finish (hrest.notMark (by decide)) value)

/-- Primary expressions are operands of a row where as many levels may be opened as there are
parentheses in one another. -/
theorem primary_readsOperands (options : Options) (levels : Nat) (literals : Bool) :
    (Parser.primary (layerInside options levels) literals).ReadsOperands levels := by
  induction levels generalizing literals with
  | zero => exact primary_reads fun hfewer => absurd hfewer.symm (Nat.succ_ne_zero _)
  | succ levels ih =>
    refine primary_reads fun hfewer => ?_
    obtain rfl := Nat.succ.inj hfewer
    exact operand_of_primary (ih true)

/-- A row is read up to the first operator that does not bind tighter than a minimum, where as many
levels may be opened as there are parentheses in one another. -/
theorem expressionAbove_row {tail : List Lexeme} (minimum : Int) (htail : RowEnds tail)
    {first : Operand} {rest : List (BinaryOperator × Operand)} {firstRow restRow : List Lexeme}
    (hfirst : first.Spells levels firstRow) (hrest : Operand.RestSpells levels rest restRow) :
    ∃ bound : Nat,
      (∀ operator : BinaryOperator,
        bound ≤ operator.precedence ↔ minimum < operator.precedence) ∧
      (Parser.expressionAbove (layerInside options levels) literals minimum
        (firstRow ++ (restRow ++ tail))).Arranged levels bound first rest restRow tail := by
  have hprimary := primary_readsOperands options levels literals
  unfold Parser.expressionAbove
  by_cases hminimum : minimum < 7
  · rw [if_pos hminimum]
    refine ⟨7 - Parser.precedencesAbove minimum, fun operator => ?_,
      binary_arranged (operand_of_primary hprimary) htail ?_ hfirst hrest⟩
    all_goals
      unfold Parser.precedencesAbove
      omega
  · rw [if_neg hminimum]
    have hfirstOnly := binary_arranged hprimary htail (Nat.zero_le 7) hfirst hrest
    refine ⟨7, fun operator => ?_, hfirstOnly⟩
    have hlt := operator.precedence_lt
    omega

end Operands

section Entries

/-- The entries of a row from which on it is not read are those behind the ones that bind from a
bound on. -/
private theorem takeWhile_eq {bound : Nat} {minimum : Int}
    {taken left : List (BinaryOperator × Operand)}
    (hbound : ∀ operator : BinaryOperator,
      bound ≤ operator.precedence ↔ minimum < operator.precedence)
    (htaken : ∀ entry ∈ taken, bound ≤ entry.1.precedence) (hleft : LooserThan bound left) :
    (taken ++ left).takeWhile (fun entry => minimum < entry.1.precedence) = taken ∧
      (taken ++ left).dropWhile (fun entry => minimum < entry.1.precedence) = left := by
  have htake : ∀ entry ∈ taken, decide (minimum < entry.1.precedence) = true :=
    fun entry hentry => decide_eq_true ((hbound _).mp (htaken entry hentry))
  rw [List.takeWhile_append_of_pos htake, List.dropWhile_append_of_pos htake]
  cases left with
  | nil => simp
  | cons entry left =>
    have hloose : ¬minimum < entry.1.precedence := fun htight =>
      Nat.not_lt.mpr ((hbound _).mpr htight) (hleft entry rfl)
    simp [hloose]

mutual

/-- No end of the input is among the lexemes of an operand. -/
private theorem Operand.Spells.inside {levels : Nat} {operand : Operand} {row : List Lexeme} :
    operand.Spells levels row → ∀ lexeme ∈ row, lexeme.kind ≠ .endOfInput
  | .number _ => by simp
  | .string _ => by simp
  | .name _ => by simp
  | .group hopening hfirst hrest hclosing => by
    have hfirstInside := Operand.Spells.inside hfirst
    have hrestInside := Operand.RestSpells.inside hrest
    have hends := Lexeme.kind_of_isMarkOf hopening
    have hcloses := Lexeme.kind_of_isMarkOf hclosing
    simp only [List.mem_cons, List.mem_append]
    rintro lexeme (rfl | hlexeme | hlexeme | rfl | hlexeme)
    · exact hends
    · exact hfirstInside lexeme hlexeme
    · exact hrestInside lexeme hlexeme
    · exact hcloses
    · cases hlexeme

/-- The operators and operands that follow are spelled without an end of input. -/
private theorem Operand.RestSpells.inside {levels : Nat}
    {rest : List (BinaryOperator × Operand)} {row : List Lexeme} :
    Operand.RestSpells levels rest row → ∀ lexeme ∈ row, lexeme.kind ≠ .endOfInput
  | .nil => by simp
  | .cons hmark hoperand hrest => by
    have hoperandInside := Operand.Spells.inside hoperand
    have hrestInside := Operand.RestSpells.inside hrest
    have hends := Lexeme.kind_of_isMarkOf hmark
    simp only [List.mem_cons, List.mem_append]
    rintro lexeme (rfl | hlexeme | hlexeme)
    · exact hends
    · exact hoperandInside lexeme hlexeme
    · exact hrestInside lexeme hlexeme

end

/-- A row of operands with operators between them, in which parentheses stand in one another no more
often than levels may be opened, is read up to the first operator that does not bind tighter than a
minimum, without a report. The result is what the only ordered arrangement of the operands that are
read stands for. -/
theorem expressionAbove_arranged (options : Options) (minimum : Int) {first : Operand}
    {rest : List (BinaryOperator × Operand)} {firstRow restRow : List Lexeme}
    (hfirst : first.Spells maxNesting firstRow) (hrest : Operand.RestSpells maxNesting rest restRow)
    {row : List Token} (hrow : row.map Token.toLexeme = firstRow ++ restRow) {terminator : Token}
    (hterminator : terminator.isMarkOf [";"] = true) (behind : List Token) :
    let input := Input.ofTokens (row ++ terminator :: behind)
    let binds := fun entry : BinaryOperator × Operand =>
      decide (minimum < entry.1.precedence)
    ∃ (arrangement : Arrangement Operand) (value : Expression) (leftRow : List Lexeme),
      arrangement.Arranges first (rest.takeWhile binds) ∧
      (∀ other : Arrangement Operand,
        other.Arranges first (rest.takeWhile binds) → other = arrangement) ∧
      arrangement.Means value ∧ (∀ other, arrangement.Means other → other = value) ∧
      Operand.RestSpells maxNesting (rest.dropWhile binds) leftRow ∧ leftRow <:+ restRow ∧
      (Session.start input).step ((Entry.expression minimum).parser options) =
        .ok (.ok value.toNode,
          ⟨input, leftRow ++ (Input.ofTokens (terminator :: behind)).lexemes, []⟩) := by
  intro input binds
  have hinside : ∀ token ∈ row, Input.isInside token = true := by
    intro token htoken
    have hmem : token.toLexeme ∈ firstRow ++ restRow := hrow ▸ List.mem_map_of_mem htoken
    have hkind := (List.mem_append.mp hmem).elim (hfirst.inside _) (hrest.inside _)
    simpa [Input.isInside] using hkind
  have hlexemes : input.lexemes =
      firstRow ++ (restRow ++ (Input.ofTokens (terminator :: behind)).lexemes) := by
    rw [Input.lexemes_ofTokens_append _ hinside, hrow, List.append_assoc]
  have htail : RowEnds (Input.ofTokens (terminator :: behind)).lexemes := by
    rw [Input.lexemes_ofTokens,
      List.takeWhile_cons_of_pos (Input.isInside_of_isMarkOf hterminator)]
    exact Lexeme.isMarkOf_subset hterminator (by decide)
  obtain ⟨bound, hbound, arrangement, value, left, leftRow, harranges, hbinds, hvalue, hall,
    hlooser, hleft, hsuffix, hread⟩ :=
    @expressionAbove_row options maxNesting true _ minimum htail _ _ _ _ hfirst hrest
  have hsplit := takeWhile_eq hbound (harranges.ordered.forall_rest hbinds) hlooser
  rw [hall] at hsplit
  refine ⟨arrangement, value, leftRow, hsplit.1 ▸ harranges,
    fun other hother => hother.unique (hsplit.1 ▸ harranges), hvalue,
    fun other hother => hother.unique hvalue, hsplit.2 ▸ hleft, hsuffix, ?_⟩
  have hentry := Parser.map_of_done Expression.toNode (hlexemes.symm ▸ hread)
  unfold Session.step Session.start Entry.parser
  simp only [Parser.outermost, hentry]
  rfl

/-- A sum is read up to a comparison behind it, where the operators have to bind tighter than one.
-/
theorem sum_before_comparison_arranged :
    let place := Location.start Location.anonymousFile
    let lexemes : List Lexeme := [⟨.identifier, "a"⟩, ⟨.operator, "+"⟩, ⟨.symbol, "("⟩,
      ⟨.identifier, "b"⟩, ⟨.symbol, ")"⟩, ⟨.operator, "<"⟩, ⟨.string, "c"⟩]
    let input := Input.ofTokens
      (lexemes.map (Token.mk · place) ++ [⟨⟨.symbol, ";"⟩, place⟩])
    ∃ (arrangement : Arrangement Operand) (value : Expression) (leftRow : List Lexeme),
      arrangement.Arranges (.name "a") [(.add, .group (.name "b") [])] ∧
      arrangement.Means value ∧
      Operand.RestSpells maxNesting [(.less, .string "c")] leftRow ∧
      (Session.start input).step ((Entry.expression 4).parser {}) =
        .ok (.ok value.toNode, ⟨input, leftRow ++ [⟨.symbol, ";"⟩], []⟩) := by
  intro place lexemes input
  have hname (text : String) (hgeneric : Parser.isGenericName text = false) (levels : Nat) :
      Operand.Spells levels (.name text) [⟨.identifier, text⟩] := .name hgeneric
  have hrest : Operand.RestSpells maxNesting
      [(.add, .group (.name "b") []), (.less, .string "c")]
      (lexemes.drop 1) :=
    .cons (by decide) (.group (by decide) (hname "b" (by decide) _) .nil (by decide))
      (.cons (by decide) (.string "c") .nil)
  have hterminator : (Token.mk ⟨.symbol, ";"⟩ place).isMarkOf [";"] = true := rfl
  have hrow : (lexemes.map (Token.mk · place)).map Token.toLexeme =
      [⟨.identifier, "a"⟩] ++ lexemes.drop 1 := rfl
  obtain ⟨arrangement, value, leftRow, harranges, -, hvalue, -, hleft, -, hstep⟩ :=
    expressionAbove_arranged {} 4 (hname "a" (by decide) _) hrest hrow hterminator []
  exact ⟨arrangement, value, leftRow, harranges, hvalue, hleft, hstep⟩

end Entries

end BraceLang
