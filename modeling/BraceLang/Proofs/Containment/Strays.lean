import BraceLang.Proofs.Containment.Enclosures
import BraceLang.Proofs.Containment.Programs

/-!
# Stray closing marks

Behind an expression that stands in too many brackets the closing marks of the outer ones are
unread. The program goes on at them as at any other lexemes. The first of them is passed as an
expression that there is none, and it lacks its semicolon at the second one, which is where the next
statement begins. So it goes on until the last one, which the semicolon stands behind. Each of the
closing marks is a statement, and all but the first are complained about twice.
-/

namespace BraceLang

open BraceLang.Parser

/-- What is complained about a stray closing mark: it does not end the statement in front of it, and
it begins no expression. -/
def Lexeme.strayComplaints (lexeme : Lexeme) : List Complaint :=
  [.unexpected (some lexeme) .terminator, .unexpected (some lexeme) .expression]

/-- What a row of stray closing marks in front of a semicolon is parsed to. -/
def strayStatements : List Lexeme → List Statement
  | [] => []
  | [last] => [.expression (.error (.unexpected (some last) .expression))]
  | _ :: next :: row =>
    .error (.unexpected (some next) .terminator) :: strayStatements (next :: row)

/-- There are as many statements as marks. -/
theorem length_strayStatements : (row : List Lexeme) → (strayStatements row).length = row.length
  | [] | [_] => rfl
  | _ :: next :: row => congrArg (· + 1) (length_strayStatements (next :: row))

/-- Reports about each lexeme of a row that others stand behind. -/
def reportsAlong (complaints : Lexeme → List Complaint) : List Lexeme → List Lexeme → List Report
  | [], _ => []
  | lexeme :: row, behind =>
    (complaints lexeme).map (Report.mk (lexeme :: (row ++ behind)).length) ++
      reportsAlong complaints row behind

/-- The words that a statement other than an expression begins with. -/
def statementWords : List String :=
  ["let", "const", "if", "while", "for", "break", "continue", "return", "struct", "impl", "fn"]

/-- No other word begins one. -/
theorem Parser.behindWord_eq_none {options : Options} {inside : Option Layer} {text : String}
    (htext : text ∉ statementWords) : behindWord options inside text = none := by
  unfold behindWord
  split <;> first | rfl | exact absurd (by decide) htext

/-- What begins with none of them is read as an expression. -/
theorem Parser.statement_of_head {options : Options} {inside : Option Layer} {unread : List Lexeme}
    (hword : ∀ lexeme ∈ unread.head?, lexeme.isWordOf statementWords = false) :
    statement options inside unread = expressionStatement inside unread := by
  cases unread with
  | nil => rfl
  | cons lexeme rest =>
    refine statement_of_expression (fun hisWord => behindWord_eq_none fun hmem => ?_) rest
    have hnot := hword lexeme rfl
    rw [Lexeme.isWordOf, hisWord, Bool.true_and, List.contains_iff_mem.mpr hmem] at hnot
    cases hnot

section Statements

variable {options : Options} {inside : Option Layer} {literals : Bool}
  {closing next : Lexeme} (hclosing : closing.isMarkOf closers = true) (rest : List Lexeme)
include hclosing

/-- A closing mark is passed as an expression that there is none. -/
theorem Parser.expression_stray (hnext : next.isMarkOf (";" :: closers) = true) :
    expression inside literals (closing :: next :: rest) =
      .done (.error (.unexpected (some closing) .expression)) (next :: rest)
        [⟨(closing :: next :: rest).length, .unexpected (some closing) .expression⟩] := by
  have hno : ∀ text ∈ closers,
      text ≠ "(" ∧ text ≠ "[" ∧ UnaryOperator.ofSpelling? text = none := by decide
  simp only [Lexeme.isMarkOf, Bool.and_eq_true, List.contains_iff_mem] at hclosing
  obtain ⟨hgroup, harray, hunary⟩ := hno _ hclosing.2
  have hscope : NotMark ["::"] (next :: rest) := Lexeme.isMarkOf_disjoint hnext (by decide)
  exact expression_of_primary (primary_noExpression hclosing.1 hgroup harray hunary _) hscope
    (operatorsBelow_of_isMarkOf hnext (by decide) 0 rest)

/-- A closing mark begins no word of a statement. -/
theorem Parser.statement_stray :
    statement options inside (closing :: rest) = expressionStatement inside (closing :: rest) := by
  refine statement_of_expression (fun hword => ?_) rest
  rw [Lexeme.isMarkOf_of_isWord hword] at hclosing
  cases hclosing

/-- The closing mark in front of the semicolon is a statement. -/
theorem Parser.statement_stray_semicolon (hnext : next.isMarkOf [";"] = true) :
    statement options inside (closing :: next :: rest) =
      .done (.expression (.error (.unexpected (some closing) .expression))) rest
        [⟨(closing :: next :: rest).length, .unexpected (some closing) .expression⟩] := by
  rw [statement_stray hclosing]
  have hexpression := @expression_stray inside true _ _ hclosing rest
    (Lexeme.isMarkOf_subset hnext (by decide))
  exact bind_of_done_silent hexpression (bind_of_silent _ (expectMark_cons hnext rest))

/-- A closing mark in front of another one is a statement that lacks its semicolon. -/
theorem Parser.statement_stray_closing (hnext : next.isMarkOf closers = true) :
    statement options inside (closing :: next :: rest) =
      .failed ⟨(next :: rest).length, .unexpected (some next) .terminator⟩ (next :: rest)
        [⟨(closing :: next :: rest).length, .unexpected (some closing) .expression⟩] := by
  have hsemicolon : next.isMarkOf [";"] = false := Lexeme.isMarkOf_disjoint hnext (by decide)
  have hterminator : terminator (next :: rest) =
      .failed ⟨(next :: rest).length, .unexpected (some next) .terminator⟩ (next :: rest) [] := by
    rw [terminator, expectMark_apply, List.head?_cons, Option.any_some, hsemicolon]
    rfl
  have hexpression := @expression_stray inside true _ _ hclosing rest
    (Lexeme.isMarkOf_subset hnext (by decide))
  rw [statement_stray hclosing, expressionStatement, bind_of_done _ hexpression,
    bind_of_failed _ hterminator, Reply.after, List.append_nil]

end Statements

section Programs

variable {options : Options} {semicolon : Lexeme} (hsemicolon : semicolon.isMarkOf [";"] = true)
  (rest : List Lexeme)
include hsemicolon

/-- A row of stray closing marks and a semicolon in front of a program are statements of their own,
and the program is parsed as it is parsed alone. -/
theorem program_strays : {row : List Lexeme} → row ≠ [] →
    (∀ closing ∈ row, closing.isMarkOf closers = true) →
    Parser.program options (row ++ semicolon :: rest) =
      ((Parser.program options rest).map (strayStatements row ++ ·)).after
        (reportsAlong Lexeme.strayComplaints row (semicolon :: rest)).tail
  | [], hrow, _ => absurd rfl hrow
  | [last], _, hclosers => by
    have hlast : last.isMarkOf closers = true := hclosers last List.mem_cons_self
    have hless : rest.length < (last :: semicolon :: rest).length := by
      simp only [List.length_cons]
      omega
    exact program_cons (recovered_of_done (statement_stray_semicolon hlast rest hsemicolon)) hless
  | first :: next :: row, _, hclosers => by
    obtain ⟨hfirst, hothers⟩ := List.forall_mem_cons.mp hclosers
    have hnext : next.isMarkOf closers = true := hothers next List.mem_cons_self
    have hlater := program_strays (List.cons_ne_nil next row) hothers
    have hitem := recovered_of_failed (@statement_stray_closing options (outermost options) _ _
      hfirst (row ++ semicolon :: rest) hnext)
    refine (program_cons hitem (Nat.lt_succ_self _)).trans ?_
    rw [show next :: (row ++ semicolon :: rest) = next :: row ++ semicolon :: rest from rfl, hlater,
      Reply.map_after, Reply.map_map, Reply.after_after]
    rfl

variable {outer inner : List (Enclosure Lexeme)} {deep : Enclosure Lexeme} {literal : Lexeme}
  (hformed : ∀ enclosure ∈ outer ++ deep :: inner, enclosure.IsFormed)
  (hlevels : outer.length = maxNesting) (hliteral : literal.kind = .number)
  (hword : ∀ lexeme ∈ (Enclosure.enclose (outer ++ deep :: inner) [literal]).head?,
    lexeme.isWordOf statementWords = false)
include hformed hlevels hliteral hword

/-- A number in one enclosure more than levels may be opened, and in any others, is a statement that
fails. The program goes on at the closing marks of the enclosures that were opened. -/
theorem program_tooDeep :
    Parser.program options (Enclosure.enclose (outer ++ deep :: inner) [literal] ++
        semicolon :: rest) =
      ((Parser.program options rest).map fun statements =>
        .error (.nestingTooDeep (some deep.opening)) ::
          (strayStatements (Enclosure.closings outer) ++ statements)).after
        (⟨(deep.opening :: (deep.field ++ (Enclosure.enclose inner [literal] ++
            deep.closing :: (Enclosure.closings outer ++ semicolon :: rest)))).length,
          .nestingTooDeep (some deep.opening)⟩ ::
          (reportsAlong Lexeme.strayComplaints (Enclosure.closings outer)
            (semicolon :: rest)).tail) := by
  obtain ⟨houter, hinner⟩ := List.forall_mem_append.mp hformed
  obtain ⟨hdeep, hinner⟩ := List.forall_mem_cons.mp hinner
  have hmark : literal.isMark = false := by simp [Lexeme.isMark, hliteral]
  have hrow : Balanced (Enclosure.enclose inner [literal]) := Enclosure.enclose_balanced hinner
    (.of_weightless (List.forall_mem_singleton.mpr (Lexeme.weight_of_not_isMark hmark)))
  have hliteralBegins : Begins closers [literal] :=
    ⟨literal, [], rfl, Lexeme.isMarkOf_of_not_isMark hmark⟩
  have hbegins := Enclosure.enclose_begins hinner hliteralBegins
  have hclosings : Enclosure.closings outer ≠ [] := by
    rw [ne_eq, ← List.length_eq_zero_iff, Enclosure.length_closings, hlevels]
    decide
  have hfails := expression_tooDeep options houter hdeep hrow hbegins (semicolon :: rest)
  rw [hlevels, ← Enclosure.enclose_append_cons] at hfails
  have hhead : ∀ lexeme ∈ (Enclosure.enclose (outer ++ deep :: inner) [literal] ++
      semicolon :: rest).head?, lexeme.isWordOf statementWords = false := by
    obtain ⟨first, behind, hcons, -⟩ := Enclosure.enclose_begins hformed hliteralBegins
    rw [hcons] at hword ⊢
    exact hword
  have hitem := recovered_of_failed
    ((@statement_of_head options _ _ hhead).trans (bind_of_failed _ hfails))
  have hless : (Enclosure.closings outer ++ semicolon :: rest).length <
      (Enclosure.enclose (outer ++ deep :: inner) [literal] ++ semicolon :: rest).length := by
    obtain ⟨first, behind, haround, -⟩ := hdeep.begins (Enclosure.enclose inner [literal])
    rw [Enclosure.enclose_append_cons, Enclosure.enclose_append, haround]
    simp only [List.length_append, List.length_cons]
    omega
  rw [program_cons hitem hless,
    program_strays hsemicolon rest hclosings (Enclosure.closings_isMarkOf houter), Reply.map_after,
    Reply.map_map, Reply.after_after]
  rfl

end Programs

/-- The diagnostics of stray closing marks: that one of them does not end the statement in front of
it, and that it begins no expression. Behind an expression that failed the first mark is where a
statement begins, so there is only the second one for it. -/
def strayDiagnostics (source : Option String) (row : List Token) : List Diagnostic :=
  (row.flatMap fun token => token.strayComplaints.map (token.diagnosis source)).tail

namespace Input

variable {front row rest : List Token} {token : Token} {source : Option String}

/-- What is reported where a token is next is diagnosed at the token. -/
theorem reported_at (hfront : ∀ token ∈ front, isInside token = true)
    (htoken : isInside token = true) (complaints : List Complaint) :
    ((ofTokens (front ++ token :: rest)).reportTo
        (complaints.map (Report.mk (ofTokens (token :: rest)).lexemes.length))
        (.empty source)).reported = complaints.map (token.diagnosis source) := by
  have hplace := @tokenAt_behind front rest token hfront htoken
  rw [reported_eq_map, List.map_map]
  refine List.map_congr_left fun complaint _ => ?_
  simp only [Function.comp_apply, placeOf, hplace, Token.make_eq_diagnosis]

/-- What is reported along a row of tokens is diagnosed at each of them. -/
theorem reported_along (complaints : Lexeme → List Complaint)
    (hfront : ∀ token ∈ front, isInside token = true)
    (hrow : ∀ token ∈ row, isInside token = true) :
    ((ofTokens (front ++ (row ++ rest))).reportTo
        (reportsAlong complaints (row.map Token.toLexeme) (ofTokens rest).lexemes)
        (.empty source)).reported =
      row.flatMap fun token => (complaints token.toLexeme).map (token.diagnosis source) := by
  induction row generalizing front with
  | nil => rfl
  | cons token row ih =>
    obtain ⟨htoken, hothers⟩ := List.forall_mem_cons.mp hrow
    have hlater := @ih (front ++ [token])
      (List.forall_mem_append.mpr ⟨hfront, List.forall_mem_singleton.mpr htoken⟩) hothers
    have hlexemes := lexemes_ofTokens_append rest hrow
    have hfirst := @reported_at front (row ++ rest) token source hfront htoken
      (complaints token.toLexeme)
    rw [← List.cons_append, hlexemes] at hfirst
    rw [List.append_assoc, List.singleton_append] at hlater
    rw [List.map_cons, reportsAlong, reported_append, List.flatMap_cons]
    exact congrArg₂ (· ++ ·) hfirst hlater

/-- A complaint about a mark and those about stray closing marks behind its group are diagnosed at
these marks. -/
theorem reported_strays {opening : Token} {group : List Token} (complaint : Complaint)
    (hfront : ∀ token ∈ front, isInside token = true) (hopening : isInside opening = true)
    (hgroup : ∀ token ∈ group, isInside token = true)
    (hrow : ∀ token ∈ row, isInside token = true) :
    ((ofTokens (front ++ opening :: (group ++ (row ++ rest)))).reportTo
        (⟨(opening.toLexeme :: (group.map Token.toLexeme ++
            (row.map Token.toLexeme ++ (ofTokens rest).lexemes))).length, complaint⟩ ::
          (reportsAlong Lexeme.strayComplaints (row.map Token.toLexeme)
            (ofTokens rest).lexemes).tail) (.empty source)).reported =
      opening.diagnosis source complaint :: strayDiagnostics source row := by
  have hlexemes : (ofTokens (opening :: (group ++ (row ++ rest)))).lexemes =
      opening.toLexeme :: (group.map Token.toLexeme ++
        (row.map Token.toLexeme ++ (ofTokens rest).lexemes)) := by
    have hall : ∀ token ∈ opening :: (group ++ row), isInside token = true :=
      List.forall_mem_cons.mpr ⟨hopening, List.forall_mem_append.mpr ⟨hgroup, hrow⟩⟩
    simpa using lexemes_ofTokens_append rest hall
  have hfirst := @reported_at _ (group ++ (row ++ rest)) _ source hfront hopening [complaint]
  have hbefore : ∀ token ∈ front ++ opening :: group, isInside token = true :=
    List.forall_mem_append.mpr ⟨hfront, List.forall_mem_cons.mpr ⟨hopening, hgroup⟩⟩
  have hstrays := @reported_along _ _ rest source Lexeme.strayComplaints hbefore hrow
  rw [hlexemes] at hfirst
  rw [List.append_assoc, List.cons_append] at hstrays
  rw [strayDiagnostics, ← hstrays, ← reported_tail]
  exact (reported_append _ source [_] _).trans (congrArg (· ++ _) hfirst)

end Input

/-- There are two diagnostics for each mark but the first. -/
theorem length_strayDiagnostics (source : Option String) (row : List Token) :
    (strayDiagnostics source row).length = 2 * row.length - 1 := by
  simp [strayDiagnostics, List.length_flatMap, Lexeme.strayComplaints, Nat.mul_comm]

section Tokens

variable {outer inner : List (Enclosure Token)} {deep : Enclosure Token} {literal : Token}

/-- No token of a number in enclosures ends an input. -/
theorem Enclosure.isInside_of_mem_enclose {enclosures : List (Enclosure Token)}
    (hformed : ∀ enclosure ∈ enclosures, (enclosure.map Token.toLexeme).IsFormed)
    (hliteral : literal.kind = .number) :
    ∀ token ∈ enclose enclosures [literal], Input.isInside token = true := by
  have hkind : ∀ lexeme ∈ [literal.toLexeme], lexeme.kind ≠ .endOfInput :=
    List.forall_mem_singleton.mpr (by simp [hliteral])
  have hlexemes := enclose_kind_ne (List.forall_mem_map.mpr hformed) hkind
  rw [← List.map_singleton, ← map_enclose] at hlexemes
  exact fun token hmem => bne_iff_ne.mpr (hlexemes _ (List.mem_map_of_mem hmem))

variable {semicolon : Token} {options : Options}
  (hformed : ∀ enclosure ∈ outer ++ deep :: inner, (enclosure.map Token.toLexeme).IsFormed)
  (hlevels : outer.length = maxNesting) (hliteral : literal.kind = .number)
  (hword : ∀ token ∈ (Enclosure.enclose (outer ++ deep :: inner) [literal]).head?,
    token.isWordOf statementWords = false)
  (hsemicolon : semicolon.isMarkOf [";"] = true) (rest : List Token)
include hformed hlevels hliteral hword hsemicolon

/-- How the lexemes of a number in too many enclosures and of what stands behind it are read. -/
theorem Input.program_tooDeep :
    let complaint := Complaint.nestingTooDeep (some deep.opening.toLexeme)
    let closings := (Enclosure.closings outer).map Token.toLexeme
    let group := deep.field ++ (Enclosure.enclose inner [literal] ++ [deep.closing])
    let after := (ofTokens (semicolon :: rest)).lexemes
    Parser.program options (ofTokens (Enclosure.enclose (outer ++ deep :: inner) [literal] ++
        semicolon :: rest)).lexemes =
      ((Parser.program options (ofTokens rest).lexemes).map fun statements =>
        .error complaint :: (strayStatements closings ++ statements)).after
        (⟨(deep.opening.toLexeme :: (group.map Token.toLexeme ++ (closings ++ after))).length,
            complaint⟩ ::
          (reportsAlong Lexeme.strayComplaints closings after).tail) := by
  intro complaint closings group after
  let lexical := List.map (Enclosure.map Token.toLexeme)
  have hlexical : lexical (outer ++ deep :: inner) =
      lexical outer ++ deep.map Token.toLexeme :: lexical inner := List.map_append
  have hliterals : [literal].map Token.toLexeme = [literal.toLexeme] := rfl
  have hall : ∀ enclosure ∈ lexical outer ++ deep.map Token.toLexeme :: lexical inner,
      enclosure.IsFormed := hlexical ▸ List.forall_mem_map.mpr hformed
  have hhead : ∀ lexeme ∈ (Enclosure.enclose (lexical outer ++
      deep.map Token.toLexeme :: lexical inner) [literal.toLexeme]).head?,
      lexeme.isWordOf statementWords = false := by
    rw [← hlexical, ← hliterals, ← Enclosure.map_enclose, List.head?_map]
    exact Option.forall_mem_map.mpr hword
  have hafter : after = semicolon.toLexeme :: (ofTokens rest).lexemes :=
    lexemes_ofTokens_append rest
      (List.forall_mem_singleton.mpr (isInside_of_isMarkOf hsemicolon))
  have hdeep := @BraceLang.program_tooDeep options semicolon.toLexeme hsemicolon
    (ofTokens rest).lexemes _ _ _ _ hall ((List.length_map _).trans hlevels) hliteral hhead
  have hclosings : closings = Enclosure.closings (lexical outer) := Enclosure.map_closings _ _
  have hgroup : group.map Token.toLexeme ++ (closings ++ after) =
      (deep.map Token.toLexeme).field ++ (Enclosure.enclose (lexical inner) [literal.toLexeme] ++
        (deep.map Token.toLexeme).closing :: (Enclosure.closings (lexical outer) ++
          semicolon.toLexeme :: (ofTokens rest).lexemes)) := by
    rw [hclosings, hafter]
    simp [group, lexical, Enclosure.map_enclose]
  have hlexemes : (ofTokens (Enclosure.enclose (outer ++ deep :: inner) [literal] ++
      semicolon :: rest)).lexemes =
        Enclosure.enclose (lexical outer ++ deep.map Token.toLexeme :: lexical inner)
          [literal.toLexeme] ++ semicolon.toLexeme :: (ofTokens rest).lexemes := by
    rw [lexemes_ofTokens_append _ (Enclosure.isInside_of_mem_enclose hformed hliteral),
      Enclosure.map_enclose, ← hlexical, hliterals, ← hafter]
  rw [hlexemes, hgroup, hclosings, hafter, hdeep, Enclosure.opening_map]

/-- What is reported about them is diagnosed at the opening mark that is one too many, and at the
closing marks of the enclosures that were opened. -/
theorem Input.exists_reports_tooDeep (source : Option String) :
    let input := ofTokens (Enclosure.enclose (outer ++ deep :: inner) [literal] ++
      semicolon :: rest)
    let complaint := Complaint.nestingTooDeep (some deep.opening.toLexeme)
    let closings := Enclosure.closings outer
    ∃ own, (input.reportTo own (.empty source)).reported =
        deep.opening.diagnosis source complaint :: strayDiagnostics source closings ∧
      Parser.program options input.lexemes =
        ((Parser.program options (ofTokens rest).lexemes).map fun statements =>
          .error complaint ::
            (strayStatements (closings.map Token.toLexeme) ++ statements)).after own := by
  intro input complaint closings
  refine ⟨_, ?_, program_tooDeep hformed hlevels hliteral hword hsemicolon rest⟩
  let group := deep.field ++ (Enclosure.enclose inner [literal] ++ [deep.closing])
  have hsplit (behind : List Token) :
      Enclosure.enclose (outer ++ deep :: inner) [literal] ++ behind =
        Enclosure.beginnings outer ++ deep.front ++
          deep.opening :: (group ++ (closings ++ behind)) := by
    simp [Enclosure.enclose_opening, group, closings]
  have hinside := Enclosure.isInside_of_mem_enclose hformed hliteral
  rw [← List.append_nil (Enclosure.enclose _ _), hsplit] at hinside
  obtain ⟨hfront, hinside⟩ := List.forall_mem_append.mp hinside
  obtain ⟨hopening, hinside⟩ := List.forall_mem_cons.mp hinside
  obtain ⟨hgroup, hclosings⟩ := List.forall_mem_append.mp hinside
  rw [List.append_nil] at hclosings
  rw [show input = _ from congrArg ofTokens (hsplit _)]
  exact reported_strays complaint hfront hopening hgroup hclosings

end Tokens

/-- A number stands in more groups, arrays, calls and struct literals than levels may be opened: in
as many as there are levels, in one more in these, and in any others. The statement is complained
about where the one too many begins, and it is one complaint among the statements. But that is not
all that comes of it. The closing marks of the enclosures that were opened are left over, and each
of them is one more statement. There are twice as many diagnostics as levels. What stands behind the
semicolon is parsed as it is parsed alone. -/
theorem parseTokens_strays {outer inner : List (Enclosure Token)} {deep : Enclosure Token}
    {literal semicolon : Token} {options : Options}
    (hformed : ∀ enclosure ∈ outer ++ deep :: inner, (enclosure.map Token.toLexeme).IsFormed)
    (hlevels : outer.length = maxNesting) (hliteral : literal.kind = .number)
    (hword : ∀ token ∈ (Enclosure.enclose (outer ++ deep :: inner) [literal]).head?,
      token.isWordOf statementWords = false)
    (hsemicolon : semicolon.isMarkOf [";"] = true) (rest : List Token)
    (source : Option String) :
    let complaint := Complaint.nestingTooDeep (some deep.opening.toLexeme)
    let closings := Enclosure.closings outer
    let strays := strayStatements (closings.map Token.toLexeme)
    let reported := deep.opening.diagnosis source complaint :: strayDiagnostics source closings
    parseTokens (Enclosure.enclose (outer ++ deep :: inner) [literal] ++ semicolon :: rest) source
        options =
      (fun (program, diagnostics) =>
        (.error complaint :: (strays ++ program), reported ++ diagnostics)) <$>
          parseTokens rest source options ∧
      strays.length = maxNesting ∧ reported.length = 2 * maxNesting := by
  intro complaint closings strays reported
  obtain ⟨own, hown, hprogram⟩ := @Input.exists_reports_tooDeep _ _ _ _ _ options hformed hlevels
    hliteral hword hsemicolon rest source
  have hinside : ∀ token ∈ Enclosure.enclose (outer ++ deep :: inner) [literal] ++ [semicolon],
      Input.isInside token = true := List.forall_mem_append.mpr
    ⟨Enclosure.isInside_of_mem_enclose hformed hliteral,
      List.forall_mem_singleton.mpr (Input.isInside_of_isMarkOf hsemicolon)⟩
  refine ⟨?_, ?_, ?_⟩
  · cases hreply : Parser.program options (Input.ofTokens rest).lexemes with
    | done program left reports =>
      have hbehind := Input.reportTo_behind hinside hreply (.empty source)
      rw [List.append_assoc, List.singleton_append] at hbehind
      rw [hreply, Reply.map, Reply.after] at hprogram
      rw [parseTokens_of_done source hprogram, parseTokens_of_done source hreply,
        Input.reported_append, hown, hbehind]
      rfl
    | failed report left reports => exact absurd hreply (program_recovers options _).ne_failed
    | stopped halt =>
      rw [hreply, Reply.map, Reply.after] at hprogram
      rw [parseTokens_of_stopped source hprogram, parseTokens_of_stopped source hreply]
      rfl
  · rw [length_strayStatements, List.length_map, Enclosure.length_closings, hlevels]
  · rw [List.length_cons, length_strayDiagnostics, Enclosure.length_closings, hlevels]
    rfl

/-- A call of an array of a struct literal with sixty-two groups in one another comes to one
complaint and sixty-four stray statements, and to 128 diagnostics. The statement behind it is none
of these. -/
theorem parseTokens_strays_mixed :
    let token (kind : Kind) (text : String) := Token.mk ⟨kind, text⟩ (.start "main")
    let group := Enclosure.group (token .symbol "(") (token .symbol ")")
    let outer := .call (token .identifier "f") (token .symbol "(") (token .symbol ")") ::
      .array (token .symbol "[") (token .symbol "]") ::
      .literal (token .identifier "P") (token .symbol "\x7b") (token .identifier "x")
        (token .symbol ":") (token .symbol "\x7d") :: List.replicate 61 group
    let rest := [token .identifier "y", token .symbol ";"]
    parseTokens rest none {} = .ok ([.expression (.name ⟨"y", []⟩)], []) ∧
      ∃ strays diagnostics,
        parseTokens (Enclosure.enclose (outer ++ [group]) [token .number "1"] ++
          token .symbol ";" :: rest) none {} =
            .ok (.error (.nestingTooDeep (some ⟨.symbol, "("⟩)) ::
              (strays ++ [.expression (.name ⟨"y", []⟩)]), diagnostics) ∧
          strays.length = 64 ∧ diagnostics.length = 128 := by
  intro token group outer rest
  have hgroup : (group.map Token.toLexeme).IsFormed := .group rfl rfl
  have hname (text : String) (hplain : isPlainName text = true) :
      (token .identifier text).IsPlainName := ⟨rfl, hplain⟩
  have hformed : ∀ enclosure ∈ outer ++ [group], (enclosure.map Token.toLexeme).IsFormed := by
    refine List.forall_mem_append.mpr ⟨?_, List.forall_mem_singleton.mpr hgroup⟩
    refine List.forall_mem_cons.mpr ⟨.call (hname "f" (by decide)) rfl rfl, ?_⟩
    refine List.forall_mem_cons.mpr ⟨.array rfl rfl, ?_⟩
    refine List.forall_mem_cons.mpr ⟨.literal (hname "P" (by decide)) rfl rfl rfl rfl, ?_⟩
    exact fun enclosure hmem => List.eq_of_mem_replicate hmem ▸ hgroup
  have hreply : Parser.program {} (Input.ofTokens rest).lexemes =
      .done [.expression (.name ⟨"y", []⟩)] [] [] := rfl
  have hrest : parseTokens rest none {} = .ok ([.expression (.name ⟨"y", []⟩)], []) :=
    (parseTokens_of_done none hreply).trans rfl
  obtain ⟨hparsed, hstrays, hreported⟩ := @parseTokens_strays outer [] group (token .number "1")
    (token .symbol ";") {} hformed rfl rfl (by decide) rfl rest none
  rw [hrest] at hparsed
  exact ⟨hrest, _, _, hparsed, hstrays, (List.append_nil _).symm ▸ hreported⟩

end BraceLang
