import BraceLang.Parser.Expression
import BraceLang.Proofs.Spelling.Types

/-!
# Accounts of expressions and blocks

Each expression parser accounts for what it passes, given that the layer inside it does. A parser
that runs behind a lexeme which it does not look at again accounts for a row that begins behind
that lexeme.
-/

namespace BraceLang

open Language Spellings

/-- The expressions of a list behind the first have commas in front. -/
theorem Expression.separates :
    Separates (mark ",") Expression.spellings Expression.behindSpellings :=
  ⟨rfl, fun _ _ => rfl⟩

/-- The items of a list of expressions are a row of expressions. -/
theorem Expression.listSpellings_eq_row (items : List Expression) :
    listSpellings items = row (mark ",") spellings behindSpellings items := by
  cases items <;> rfl

/-- The spellings of a field of a struct literal. -/
def Expression.pairSpellings (field : String × Expression) : Spellings :=
  fieldForm field.1 field.2 field.2.spellings

/-- The fields of a struct literal behind the first have commas in front. -/
theorem Expression.separatesFields :
    Separates (mark ",") Expression.pairSpellings Expression.behindFieldSpellings :=
  ⟨rfl, fun _ _ => rfl⟩

/-- The fields of a struct literal are a row of fields. -/
theorem Expression.fieldSpellings_eq_row (fields : List (String × Expression)) :
    fieldSpellings fields = row (mark ",") pairSpellings behindFieldSpellings fields := by
  cases fields <;> rfl

/-- An expression is complaint, which has no spelling, or has a form without parentheses. -/
theorem Expression.exists_spellings_eq (value : Expression) :
    value.spellings = 0 ∨ ∃ form, value.spellings = grouped form := by
  cases value with
  | error => exact .inl rfl
  | _ => exact .inr ⟨_, rfl⟩

/-- An expression in parentheses is the expression. -/
theorem Expression.parenthesized_mem {value : Expression} {opening closing : Lexeme}
    {passed : List Lexeme} (hopening : opening.isMarkOf ["("] = true)
    (hpassed : passed ∈ value.spellings) (hclosing : closing.isMarkOf [")"] = true) :
    opening :: (passed ++ [closing]) ∈ value.spellings := by
  rcases value.exists_spellings_eq with hzero | ⟨form, hform⟩
  · rw [hzero] at hpassed
    exact absurd hpassed (notMem_zero passed)
  · rw [hform] at hpassed ⊢
    exact mem_grouped_of_mem hopening hpassed hclosing

/-- What is unread, if anything, begins with one of some closing marks. -/
def Closes (closing : List String) (rest : List Lexeme) : Prop :=
  ∀ lexeme ∈ rest.head?, lexeme.isMarkOf closing = true

/-- Statements found since some were held, up to a closing mark or to the end. They follow one
another, and only at the end of the input may the last of them be unclosed. -/
def Outcome.statements (closing : List String) (held : List Statement) :
    Outcome (List Statement) :=
  fun last passed rest reports => Closes closing rest ∧
    (reports = [] → ∃ found, last = found.reverse ++ held ∧ (passed = [] → found = []) ∧
      (passed ∈ Statement.rowSpellings found ∨
        rest = [] ∧ passed ∈ Statement.programSpellings found))

section Statements

variable {levels : Nat}

/-- Every statement is spelled with at least one lexeme. -/
theorem Statement.nil_notMem_spellings (statement : Statement) : [] ∉ statement.spellings := by
  have hmul {first second : Spellings} (hmem : [] ∈ first * second) :
      [] ∈ first ∧ [] ∈ second := by
    obtain ⟨left, hleft, right, hright, happend⟩ := mem_mul.mp hmem
    obtain ⟨rfl, rfl⟩ := List.append_eq_nil_iff.mp happend
    exact ⟨hleft, hright⟩
  have hmark (text : String) : [] ∉ mark text := by rintro ⟨_, _, hnil⟩; cases hnil
  have hword (text : String) : [] ∉ word text := by rintro ⟨_, _, hnil⟩; cases hnil
  intro hmem
  cases statement with
  | declaration => exact hmark _ (hmul hmem).2
  | conditional => exact hword _ (hmul (hmul (hmul hmem).1).1).1
  | whileLoop => exact hword _ (hmul (hmul hmem).1).1
  | forLoop => exact hword _ (hmul (hmul (hmul (hmul (hmul hmem).1).1).1).1).1
  | breakLoop => exact hmark _ (hmul hmem).2
  | continueLoop => exact hmark _ (hmul hmem).2
  | returnValue value => cases value <;> exact hmark _ (hmul hmem).2
  | expression => exact hmark _ (hmul hmem).2
  | struct => exact hword _ (hmul (hmul hmem).1).1
  | impl => exact hword _ (hmul (hmul hmem).1).1
  | function => exact hword _ (hmul hmem).1
  | error => exact hmem

/-- A failure that is recovered leaves a report. -/
theorem Reply.Accounts.recovered {parser : Parser Statement} {unread : List Lexeme}
    (hparser : (parser unread).Accounts levels unread .statement) :
    (Parser.recovered parser unread).Accounts levels unread .statement := by
  unfold Parser.recovered
  cases hreply : parser unread with
  | done statement rest reports =>
    rw [hreply] at hparser
    exact hparser
  | failed report rest reports =>
    rw [hreply] at hparser
    obtain ⟨passed, hsplit, hread⟩ := hparser
    exact ⟨passed, hsplit, hread, fun hreports => by simp at hreports⟩
  | stopped halt =>
    rw [hreply] at hparser
    exact hparser

/-- Recovering from a failure keeps the lexemes that were passed. -/
theorem Reply.Moves.recovered {parser : Parser Statement} {unread : List Lexeme}
    (hmoves : (parser unread).Moves unread) : (Parser.recovered parser unread).Moves unread := by
  unfold Parser.recovered
  cases hreply : parser unread <;> rw [hreply] at hmoves <;> exact hmoves

/-- Where a statement parser passes nothing, the lexeme that is passed instead is no number. -/
theorem Reply.Accounts.passing {parser : Parser Statement} {lexeme : Lexeme} {rest : List Lexeme}
    (hparser : (parser (lexeme :: rest)).Accounts levels (lexeme :: rest) .statement)
    (hnumber : lexeme.kind = .number → (parser (lexeme :: rest)).Moves (lexeme :: rest)) :
    (Parser.passing parser (lexeme :: rest)).Accounts levels (lexeme :: rest)
      fun statement passed rest reports =>
        passed ≠ [] ∧ Outcome.statement statement passed rest reports := by
  unfold Parser.passing
  cases hreply : parser (lexeme :: rest) with
  | failed report left reports =>
    rw [hreply] at hparser
    exact hparser
  | stopped halt =>
    rw [hreply] at hparser
    exact hparser
  | done statement left reports =>
    rw [hreply] at hparser hnumber
    obtain ⟨passed, hsplit, hread, hstatement⟩ := hparser
    have hlength := congrArg List.length hsplit
    rw [List.length_append] at hlength
    by_cases hshorter : left.length < (lexeme :: rest).length
    · simp only [if_pos hshorter]
      refine ⟨passed, hsplit, hread, ?_, hstatement⟩
      rintro rfl
      rw [List.length_nil] at hlength
      omega
    · obtain rfl : passed = [] := List.length_eq_zero_iff.mp (by omega)
      obtain rfl : left = lexeme :: rest := hsplit.symm
      simp only [if_neg hshorter]
      refine ⟨[lexeme], rfl, fun _ other hother => ?_, by simp, fun hreports => ?_⟩
      · rw [List.mem_singleton.mp hother]
        exact Lexeme.isReadable_of_kind fun hkind => hshorter (hnumber hkind)
      · rcases hstatement hreports with hmem | ⟨hend, _⟩
        · exact absurd hmem statement.nil_notMem_spellings
        · exact absurd hend (by simp)

/-- A statement in front of a row of statements. -/
theorem Statement.cons_mem_rows {statement : Statement} {found : List Statement}
    {passed more : List Lexeme} {rest left : List Lexeme} (hrest : rest = more ++ left)
    (hnil : more = [] → found = [])
    (hstatement : passed ∈ statement.spellings ∨ rest = [] ∧ passed ∈ statement.unclosedSpellings)
    (hfound : more ∈ rowSpellings found ∨ left = [] ∧ more ∈ programSpellings found) :
    passed ++ more ∈ rowSpellings (statement :: found) ∨
      left = [] ∧ passed ++ more ∈ programSpellings (statement :: found) := by
  rcases hstatement with hstatement | ⟨hend, hunclosed⟩
  · rcases hfound with hrow | ⟨hend, hprogram⟩
    · exact .inl (append_mem_mul hstatement hrow)
    · refine .inr ⟨hend, ?_⟩
      cases found with
      | nil =>
        obtain rfl : more = [] := hprogram
        rw [List.append_nil]
        exact .inl hstatement
      | cons second found => exact append_mem_mul hstatement hprogram
  · obtain ⟨rfl, rfl⟩ := List.append_eq_nil_iff.mp (hrest.symm.trans hend)
    obtain rfl := hnil rfl
    rw [List.append_nil]
    exact .inr ⟨rfl, .inr hunclosed⟩

/-- A round of a block accounts for the statement that it reads. -/
private theorem nextStatement_accounts {parser : Parser Statement} {closing : List String}
    (hparser : ∀ unread, (parser unread).Accounts levels unread .statement)
    (hnumber : ∀ {lexeme}, lexeme.kind = .number → ∀ rest,
      (parser (lexeme :: rest)).Moves (lexeme :: rest))
    (held : List Statement) (unread : List Lexeme) :
    (Parser.nextStatement parser closing held unread).Accounts levels unread
      (Outcome.ofRound (Outcome.statements closing) held) := by
  have hstays {rest : List Lexeme} (hcloses : Closes closing rest) :
      Outcome.statements closing held held [] rest [] :=
    ⟨hcloses, fun _ => ⟨[], rfl, fun _ => rfl, .inl nil_mem_one⟩⟩
  unfold Parser.nextStatement
  rw [Parser.atEnd_bind]
  cases unread with
  | nil => exact .pure (hstays (by simp [Closes]))
  | cons lexeme rest =>
    rw [if_neg (by simp), Parser.nextIsMark_bind]
    split
    · next hcloses => exact .pure (hstays (by simpa [Closes] using hcloses))
    · refine .bind (.passing (hparser _).recovered fun hkind => (hnumber hkind rest).recovered) ?_
      rintro statement passed left reports ⟨hpassed, hstatement⟩
      refine .pure ⟨by simpa using hpassed, fun last more after later hsplit hmore => ?_⟩
      refine ⟨hmore.1, fun hreports => ?_⟩
      simp only [List.append_nil, List.append_eq_nil_iff] at hreports ⊢
      obtain ⟨found, rfl, hnil, hfound⟩ := hmore.2 hreports.2
      refine ⟨statement :: found, by simp, fun hempty => absurd hempty.1 hpassed, ?_⟩
      exact Statement.cons_mem_rows hsplit hnil (hstatement hreports.1) hfound

/-- Statements up to one of some marks or to the end. -/
theorem statements_accounts {parser : Parser Statement} {closing : List String}
    (hparser : ∀ unread, (parser unread).Accounts levels unread .statement)
    (hnumber : ∀ {lexeme}, lexeme.kind = .number → ∀ rest,
      (parser (lexeme :: rest)).Moves (lexeme :: rest))
    (unread : List Lexeme) :
    (Parser.statements parser closing unread).Accounts levels unread
      fun body passed rest reports => Closes closing rest ∧
        (reports = [] → passed ∈ Statement.rowSpellings body ∨
          rest = [] ∧ passed ∈ Statement.programSpellings body) := by
  unfold Parser.statements
  refine .bind (.repeating (nextStatement_accounts hparser hnumber) [] unread) ?_
  intro items passed rest reports hitems
  refine .pure ⟨hitems.1, fun hreports => ?_⟩
  obtain ⟨found, rfl, _, hfound⟩ := hitems.2 (by simpa using hreports)
  simpa using hfound

end Statements

namespace InsideAccounts

variable {levels : Nat} {inside : Option Layer} (hinside : InsideAccounts levels inside)
include hinside

/-- A block. -/
theorem block (unread : List Lexeme) :
    (Parser.block inside unread).Accounts levels unread
      (.spells fun body => braced (Statement.rowSpellings body)) := by
  unfold Parser.block
  -- The closing brace stands behind the statements, so none of them is at the end of the input.
  refine .bind (show Reply.Accounts _ _ (fun body passed rest reports =>
    ∃ opening more, passed = opening :: more ∧ opening.isMarkOf ["\x7b"] = true ∧
      (reports = [] → more ∈ Statement.rowSpellings body ∨ rest = [])) _ from
    .nested hinside fun left layer _ hlayer => .expectMark fun opening rest _ hopening => .opened
      (Lexeme.isMarkOf_nestingMarks hopening (by decide))
      ((statements_accounts hlayer.statement hlayer.number rest).mono
        fun body more after reports _ hbody =>
          ⟨opening, more, rfl, hopening, fun hreports => (hbody.2 hreports).imp_right And.left⟩)) ?_
  rintro body passed rest reports ⟨opening, more, rfl, hopening, hbody⟩
  refine .expectMark fun closing after hrest hclosing => ?_
  refine .cons (Lexeme.isReadable_of_isMarkOf hclosing) (.pure fun hreports => ?_)
  rcases hbody (by simpa using hreports) with hrow | hend
  · exact mem_braced hopening hrow hclosing
  · exact absurd (hrest.symm.trans hend) (by simp)

/-- The arguments of a call. -/
theorem arguments {opening : Lexeme} (hopening : opening.isMarkOf ["("] = true)
    (rest : List Lexeme) :
    (Parser.arguments inside (opening :: rest)).Accounts levels (opening :: rest)
      (.spells fun items => parenthesized (Expression.listSpellings items)) := by
  unfold Parser.arguments
  refine .nested hinside fun left layer _ hlayer => ?_
  rw [Parser.advance_bind]
  refine .opened (Lexeme.isMarkOf_nestingMarks hopening (by decide)) ?_
  refine .bind (Parser.listed_accounts Expression.separates (hlayer.expression true) _) ?_
  intro items passed after reports hitems
  refine .expectMark fun closing last _ hclosing => ?_
  refine .cons (Lexeme.isReadable_of_isMarkOf hclosing) (.pure fun hreports => ?_)
  simp only [Expression.listSpellings_eq_row]
  exact mem_parenthesized hopening (hitems (by simpa using hreports)) hclosing

/-- A function value. -/
theorem functionValue {opening closing : Lexeme} (hopening : opening.isMarkOf ["("] = true)
    (hclosing : closing.isMarkOf [")"] = true) (rest : List Lexeme) :
    (Parser.functionValue inside (opening :: closing :: rest)).Accounts levels
      (opening :: closing :: rest) fun value passed _ reports => reports = [] →
        ∃ returnType body, value = .function returnType body ∧
          passed ∈ Spellings.functionValue returnType.spellings
            (braced (Statement.rowSpellings body)) := by
  unfold Parser.functionValue
  rw [Parser.advance_bind, Parser.advance_bind]
  refine .cons (Lexeme.isReadable_of_isMarkOf hopening) ?_
  refine .cons (Lexeme.isReadable_of_isMarkOf hclosing) ?_
  refine .expectMark fun arrow after _ harrow => ?_
  refine .cons (Lexeme.isReadable_of_isMarkOf harrow) (.bind (hinside.type after) ?_)
  intro returnType row₁ left reports htype
  refine .bind (hinside.block left) fun body row₂ last later hbody => ?_
  refine .pure fun hreports => ⟨returnType, body, rfl, ?_⟩
  simp only [List.append_nil, List.append_eq_nil_iff] at hreports ⊢
  rw [Spellings.functionValue, mul_assoc, mul_assoc]
  have hpair : [opening, closing] ∈ parenthesized 1 :=
    mem_parenthesized hopening nil_mem_one hclosing
  exact append_mem_mul hpair
    (cons_mem (mark_mem harrow) (append_mem_mul (htype hreports.1) (hbody hreports.2)))

/-- An expression in parentheses. -/
theorem group {opening : Lexeme} (hopening : opening.isMarkOf ["("] = true) (rest : List Lexeme) :
    (Parser.group inside (opening :: rest)).Accounts levels (opening :: rest)
      (.spells Expression.spellings) := by
  unfold Parser.group
  refine .nested hinside fun left layer _ hlayer => ?_
  rw [Parser.advance_bind]
  refine .opened (Lexeme.isMarkOf_nestingMarks hopening (by decide)) ?_
  refine .bind (hlayer.expression true _) fun value passed after reports hvalue => ?_
  refine .expectMark fun closing last _ hclosing => ?_
  refine .cons (Lexeme.isReadable_of_isMarkOf hclosing) (.pure fun hreports => ?_)
  exact Expression.parenthesized_mem hopening (hvalue (by simpa using hreports)) hclosing

/-- An array. -/
theorem array {opening : Lexeme} (hopening : opening.isMarkOf ["["] = true) (rest : List Lexeme) :
    (Parser.array inside (opening :: rest)).Accounts levels (opening :: rest)
      (.spells Expression.spellings) := by
  unfold Parser.array
  refine .nested hinside fun left layer _ hlayer => ?_
  rw [Parser.advance_bind]
  refine .opened (Lexeme.isMarkOf_nestingMarks hopening (by decide)) ?_
  refine .bind (Parser.listed_accounts Expression.separates (hlayer.expression true) _) ?_
  intro items passed after reports hitems
  refine .expectMark fun closing last _ hclosing => ?_
  refine .cons (Lexeme.isReadable_of_isMarkOf hclosing) (.pure fun hreports => ?_)
  rw [Expression.spellings, Expression.listSpellings_eq_row, mul_assoc]
  exact mem_grouped (cons_mem (mark_mem hopening)
    (append_mem_mul (hitems (by simpa using hreports)) (mark_mem hclosing)))

/-- A unary operation. -/
theorem unary {lexeme : Lexeme} {operator : UnaryOperator}
    (hoperator : lexeme.isMarkOf [operator.spelling] = true) (literals : Bool)
    (rest : List Lexeme) :
    (Parser.unary inside literals operator (lexeme :: rest)).Accounts levels (lexeme :: rest)
      (.spells Expression.spellings) := by
  have hnesting : [operator.spelling] ⊆ nestingMarks := by cases operator <;> decide
  unfold Parser.unary
  refine .nested hinside fun left layer _ hlayer => ?_
  rw [Parser.advance_bind]
  refine .opened (Lexeme.isMarkOf_nestingMarks hoperator hnesting) ?_
  refine .bind (hlayer.operand literals _) fun value passed after reports hvalue => ?_
  refine .pure fun hreports => ?_
  rw [Expression.spellings, List.append_nil]
  exact mem_grouped (cons_mem (mark_mem hoperator) (hvalue (by simpa using hreports)))

end InsideAccounts

section StructLiterals

variable {levels : Nat} {layer : Layer}

/-- A field of a struct literal. -/
theorem Layer.Accounts.literalField (hlayer : layer.Accounts levels) (struct : String)
    (given : List (String × Expression)) (unread : List Lexeme) :
    (Parser.literalField layer struct given unread).Accounts levels unread
      (.spells Expression.pairSpellings) := by
  unfold Parser.literalField
  rw [Parser.peek_bind]
  match unread with
  | [] => exact .failed
  | ⟨kind, text⟩ :: rest =>
    by_cases hkind : kind = .identifier
    · subst hkind
      have hreadable : Lexeme.IsReadable ⟨.identifier, text⟩ := Lexeme.isReadable_of_kind (by simp)
      simp only [List.head?_cons, if_true]
      split
      · exact ⟨[_], rfl, fun _ _ hmem => by rwa [List.mem_singleton.mp hmem]⟩
      · rw [Parser.advance_bind]
        refine .cons hreadable (.accept (fun colon after _ hcolon => ?_) (.pure ?_))
        · refine .cons (Lexeme.isReadable_of_isMarkOf hcolon) (.bind (hlayer.expression true _) ?_)
          intro value passed left reports hvalue
          refine .pure fun hreports => .inl ?_
          rw [mul_assoc, List.append_nil]
          exact cons_mem (identifier_mem text)
            (cons_mem (mark_mem hcolon) (hvalue (by simpa using hreports)))
        · exact fun _ => .inr ⟨rfl, identifier_mem text⟩
    · simp only [List.head?_cons, if_neg hkind]
      exact .failed

end StructLiterals

namespace InsideAccounts

variable {levels : Nat} {inside : Option Layer} (hinside : InsideAccounts levels inside)
include hinside

/-- A struct literal, behind its name. -/
theorem structLiteral {opening : Lexeme} (hopening : opening.isMarkOf ["\x7b"] = true)
    (name : String) (rest : List Lexeme) :
    (Parser.structLiteral inside name (opening :: rest)).Accounts levels (opening :: rest)
      fun value passed _ reports =>
        reports = [] → ⟨.identifier, name⟩ :: passed ∈ value.spellings := by
  unfold Parser.structLiteral
  refine .nested hinside fun left layer _ hlayer => ?_
  rw [Parser.advance_bind]
  refine .opened (Lexeme.isMarkOf_nestingMarks hopening (by decide)) ?_
  refine .bind (Parser.upTo_accounts Expression.separatesFields mark_mem
    (hlayer.literalField name) _) ?_
  intro fields passed after reports hfields
  refine .expectMark fun closing last _ hclosing => ?_
  refine .cons (Lexeme.isReadable_of_isMarkOf hclosing) (.pure fun hreports => ?_)
  rw [Expression.spellings, Expression.fieldSpellings_eq_row]
  exact mem_grouped (cons_mem (identifier_mem name)
    (mem_braced hopening (hfields (by simpa using hreports)) hclosing))

/-- What stands behind a name and its type arguments, of which there may have been reports. -/
theorem called {name : Name} {row : List Lexeme} {earlier : List Report}
    (hrow : earlier = [] → row ∈ name.spellings) (unread : List Lexeme) :
    (Parser.called inside name unread).Accounts levels unread
      fun value passed _ reports => earlier ++ reports = [] → row ++ passed ∈ value.spellings := by
  unfold Parser.called
  rw [Parser.nextIsMark_bind]
  split
  · next hmark =>
    obtain ⟨opening, rest, rfl, hopening⟩ := Parser.exists_cons_of_head_any hmark
    refine .bind (hinside.arguments hopening rest) fun items passed after reports hitems => ?_
    refine .pure fun hreports => ?_
    simp only [List.append_nil, List.append_eq_nil_iff] at hreports ⊢
    rw [Expression.spellings]
    exact mem_grouped (append_mem_mul (hrow hreports.1) (hitems hreports.2))
  · refine .pure fun hreports => ?_
    rw [Expression.spellings, List.append_nil]
    exact mem_grouped (hrow (by simpa using hreports))

/-- What stands behind a name. -/
theorem named (literals : Bool) (name : String) (unread : List Lexeme) :
    (Parser.named inside literals name unread).Accounts levels unread
      fun value passed _ reports =>
        reports = [] → ⟨.identifier, name⟩ :: passed ∈ value.spellings := by
  unfold Parser.named
  rw [Parser.nextIsMark_bind]
  split
  · next hbrace =>
    obtain ⟨opening, rest, rfl, hopening⟩ :=
      Parser.exists_cons_of_head_any (Bool.and_eq_true_iff.mp hbrace).2
    exact hinside.structLiteral hopening name rest
  · rw [Parser.nextAreTypeArguments_bind]
    split
    · next hgeneric =>
      obtain ⟨bracket, rest, rfl, hbracket⟩ := Parser.exists_cons_of_head_any
        (Bool.and_eq_true_iff.mp (Bool.and_eq_true_iff.mp hgeneric).1).1
      rw [Parser.advance_bind]
      refine .bind (hinside.typeArguments hbracket rest) ?_
      intro types passed after reports htypes
      exact hinside.called
        (fun hreports => cons_mem (identifier_mem name) (htypes hreports)) after
    · have hname : [⟨.identifier, name⟩] ∈ Name.spellings ⟨name, []⟩ := by
        rw [Name.spellings, TypeExpr.argumentSpellings, mul_one]
        exact identifier_mem name
      exact hinside.called (fun _ : ([] : List Report) = [] => hname) unread

end InsideAccounts

end BraceLang
