import BraceLang.Proofs.Conditions.Expressions
import BraceLang.Proofs.Construction.Yields
import BraceLang.Proofs.Lockstep.Composition
import BraceLang.Proofs.Printing.Reading

/-!
# Conditions of statements

An expression that is a statement of its own may be the condition of a conditional statement or of
a loop, or what a loop goes over, and it is the same expression there: the brace behind it opens the
block.
-/

namespace BraceLang

open BraceLang.Parser

section Statements

variable {options : Options} {inside : Option Layer}

/-- What a parser yields is what its last part yields, whatever is read before. -/
theorem Parser.Yields.of_last {α β : Type} {parser : Parser α} {next : α → Parser β}
    {condition : β → Prop} (hnext : ∀ value, (next value).Yields fun result _ => condition result) :
    (parser >>= next).Yields fun result _ => condition result := by
  have hany : parser.Yields fun _ _ => True := fun unread => by cases parser unread <;> trivial
  exact hany.bind fun value _ _ => hnext value

/-- Whether a statement begins with its word, and is not an expression. -/
def Statement.isWorded : Statement → Bool
  | .expression _ => false
  | _ => true

/-- No statement that begins with its word is an expression. -/
theorem Parser.behindWord_isWorded {word : String} {parser : Parser Statement}
    (hparser : behindWord options inside word = some parser) :
    parser.Yields fun statement _ => statement.isWorded = true := by
  have hdeclaration (binding : Binding) :
      (declaration inside binding).Yields fun statement _ => statement.isWorded = true := by
    refine .of_last fun name => .of_last fun type => .of_last fun _ => .of_last fun answer => ?_
    split
    · refine .of_last fun value => .of_last fun ended => ?_
      split
      · exact .pure rfl
      · exact .of_last fun _ => .pure rfl
    · exact .of_last fun value => .of_last fun _ => .pure rfl
  have hreturn : (returnValue inside).Yields fun statement _ => statement.isWorded = true := by
    refine .of_last fun answer => ?_
    split
    · exact .of_last fun _ => .pure rfl
    · exact .of_last fun value => .of_last fun _ => .pure rfl
  cases hparser using Parser.behindWord_cases with
  | declaration binding => exact hdeclaration binding
  | conditional => exact .of_last fun first => .of_last fun others => .pure rfl
  | whileLoop => exact .of_last fun condition => .of_last fun body => .pure rfl
  | forLoop =>
    exact .of_last fun binding => .of_last fun name => .of_last fun _ => .of_last fun iterable =>
      .of_last fun body => .pure rfl
  | breakLoop => exact .of_last fun _ => .pure rfl
  | continueLoop => exact .of_last fun _ => .pure rfl
  | returnValue => exact hreturn
  | struct =>
    exact .of_last fun name => .of_last fun _ => .of_last fun fields => .of_last fun _ => .pure rfl
  | impl =>
    exact .of_last fun name => .of_last fun _ => .of_last fun methods => .of_last fun _ => .pure rfl
  | function => exact .of_last fun function => .pure rfl

/-- A statement that is an expression is read as one, up to its semicolon. -/
theorem Parser.expression_of_statement {unread rest : List Lexeme} {value : Expression}
    (hdone : statement options inside unread = .done (.expression value) rest []) :
    ∃ semicolon, semicolon.isMarkOf [";"] = true ∧
      expression inside true unread = .done value (semicolon :: rest) [] := by
  have hexpression : expressionStatement inside unread = .done (.expression value) rest [] := by
    unfold statement at hdone
    rw [peek_bind] at hdone
    cases unread with
    | nil => exact hdone
    | cons lexeme behind =>
      cases hword : (if lexeme.isWord then behindWord options inside lexeme.text else none) with
      | none =>
        simp only [List.head?_cons, hword] at hdone
        exact hdone
      | some parser =>
        simp only [List.head?_cons, hword] at hdone
        have hparser : behindWord options inside lexeme.text = some parser := by
          split at hword
          · exact hword
          · cases hword
        have hgives := behindWord_isWorded hparser behind
        rw [advance_bind] at hdone
        rw [show parser behind = _ from hdone] at hgives
        cases hgives
  obtain ⟨inner, middle, hinner, hlast⟩ := exists_of_bind_eq_silent hexpression
  obtain ⟨_, left, hterminator, hpure⟩ := exists_of_bind_eq_silent hlast
  obtain ⟨hvalue, rfl, -⟩ := Reply.done.inj hpure
  cases hvalue
  obtain ⟨semicolon, rfl, hsemicolon⟩ := exists_mark_of_expectMark hterminator
  exact ⟨semicolon, hsemicolon, hinner⟩

/-- The only statement of a program. -/
theorem Parser.statement_of_program {unread : List Lexeme} {item : Statement}
    (hprogram : program options unread = .done [item] [] []) :
    ∃ rest, statement options (outermost options) unread = .done item rest [] ∧
      (rest.length < unread.length → rest = []) := by
  unfold program statements at hprogram
  obtain ⟨items, middle, hitems, hreverse⟩ := exists_of_bind_eq_silent hprogram
  obtain ⟨hlast, rfl, -⟩ := Reply.done.inj hreverse
  have hpassing : passing (recovered (statement options (outermost options))) unread =
      .done item [] [] := by
    rcases repeatFor_cases (show repeatFor _ unread [] unread = _ from hitems) with hround |
      ⟨_, _, _, _, _, _, -, hround, hlater, hreports⟩
    · obtain ⟨rfl, -, -⟩ := nextStatement_finish hround
      cases hlast
    · obtain ⟨first, rfl, hfirst, -⟩ := nextStatement_again hround
      obtain ⟨rfl, rfl⟩ := List.append_eq_nil_iff.mp hreports.symm
      rcases repeatFor_cases hlater with hround | ⟨_, _, _, _, _, _, -, hround, hlater, -⟩
      · rw [nextStatement_apply] at hround
        split at hround
        · obtain ⟨hturn, rfl, -⟩ := Reply.done.inj hround
          obtain rfl := Turn.finish.inj hturn
          obtain rfl : first = item := List.singleton_inj.mp hlast
          exact hfirst
        · obtain ⟨_, _, _, _, -, hturn, -⟩ := exists_of_bind_eq_done hround
          cases hturn
      · obtain ⟨second, rfl, -, -⟩ := nextStatement_again hround
        obtain ⟨found, rfl⟩ := (Rounds.of_repeatFor hlater).exists_found
        have hlength := congrArg List.length hlast
        simp at hlength
  unfold passing recovered at hpassing
  cases hstatement : statement options (outermost options) unread with
  | done value rest reports =>
    rw [hstatement] at hpassing
    obtain ⟨rfl, hrest, rfl⟩ := Reply.done.inj hpassing
    exact ⟨rest, rfl, fun hshorter => by rwa [if_pos hshorter] at hrest⟩
  | failed report rest reports =>
    rw [hstatement] at hpassing
    have hreports := (Reply.done.inj hpassing).2.2
    simp at hreports
  | stopped halt =>
    rw [hstatement] at hpassing
    cases hpassing

/-- A program of one statement. -/
theorem Parser.program_of_statement {lexeme : Lexeme} {rest : List Lexeme} {item : Statement}
    (hstatement : statement options (outermost options) (lexeme :: rest) = .done item [] []) :
    program options (lexeme :: rest) = .done [item] [] [] := by
  rw [program_cons (recovered_of_done hstatement) (Nat.succ_pos _)]
  rfl

/-- A loop over the items of something is read from what it goes over on. -/
theorem Parser.forLoop_behind_in {letWord name inWord : Lexeme}
    (hlet : letWord.isWordOf ["let"] = true) (hname : name.kind = .identifier)
    (hin : inWord.isWordOf ["in"] = true) (rest : List Lexeme) :
    forLoop inside (letWord :: name :: inWord :: rest) = (do
      let iterable ← expression inside false
      let body ← block inside
      return .forLoop .variable name.text iterable body : Parser Statement) rest := by
  have hbinding : binding (letWord :: name :: inWord :: rest) =
      .done .variable (name :: inWord :: rest) [] := by
    unfold binding
    rw [nextIsWord_bind, List.head?_cons, Option.any_some, if_pos hlet]
    rfl
  have hidentifier : identifier .loopVariable (name :: inWord :: rest) =
      .done name.text (inWord :: rest) [] := by
    rw [identifier_apply]
    exact if_pos (by simp [hname])
  have hword : expectWord "in" .loopIn (inWord :: rest) = .done () rest [] := by
    rw [expectWord_apply]
    exact if_pos hin
  unfold forLoop
  rw [bind_of_silent _ hbinding, bind_of_silent _ hidentifier, bind_of_silent _ hword]

end Statements

section Conditions

variable {endings : Endings} {options : Options} {row : List Lexeme} {value : Expression}

/-- The braces of an empty block. -/
theorem Endings.block_reads (endings : Endings) (options : Options) :
    Parser.block (outermost options) endings.block = .done [] [] [] := by
  have hstatements (statement : Parser Statement) :
      statements statement ["\x7d"] [endings.closing] = .done [] [endings.closing] [] := by
    have hround : nextStatement statement ["\x7d"] [] [endings.closing] =
        .done (.finish []) [endings.closing] [] := by
      rw [nextStatement_apply, if_pos (.inr endings.isClosing)]
    unfold statements
    rw [bind_of_silent _ (repeating_finish hround)]
    rfl
  have hopening (behind : Unit → Parser (List Statement)) :
      (expectMark "\x7b" .blockOpening >>= behind) endings.block = behind () [endings.closing] := by
    exact bind_of_silent _ (expectMark_cons endings.isOpening _)
  have hinside : nested (outermost options) (fun layer => do
      expectMark "\x7b" .blockOpening
      statements layer.statement ["\x7d"]) endings.block = .done [] [endings.closing] [] := by
    change (expectMark "\x7b" .blockOpening >>= fun _ =>
      statements (statement options (layerInside options 63)) ["\x7d"]) endings.block = _
    rw [hopening, hstatements]
  have hclosing : expectMark "\x7d" .blockClosing [endings.closing] = .done () [] [] :=
    expectMark_cons endings.isClosing []
  unfold Parser.block
  rw [bind_of_silent _ hinside, bind_of_silent _ hclosing]
  rfl

variable (hrow : BracesInside row)
  (hstatement : Parser.program options (row ++ [endings.semicolon]) =
    .done [.expression value] [] [])
include hrow hstatement

/-- The expression of a statement is the condition in front of an empty block. -/
theorem Parser.condition_reads :
    expression (outermost options) false (row ++ endings.block) = .done value endings.block [] := by
  obtain ⟨rest, hdone, hrest⟩ := statement_of_program hstatement
  obtain ⟨semicolon, -, hvalue⟩ := expression_of_statement hdone
  rw [outermost] at hvalue
  have outline : Outline ⟨true, maxNesting, true⟩ none (expression _ true) :=
    (insideOutlines options maxNesting).expression
  have hsuffix : semicolon :: rest <:+ row ++ [endings.semicolon] := outline.runs.suffix hvalue
  obtain rfl : rest = [] := hrest (Nat.lt_of_lt_of_le (Nat.lt_succ_self _) hsuffix.length_le)
  have hlast : [semicolon] = [endings.semicolon] := by
    simpa using List.suffix_iff_eq_drop.mp hsuffix
  rw [hlast] at hvalue
  have halike := (layerInside_comparison endings options maxNesting).expression hrow
  exact (@halike [] value hvalue).2

/-- A conditional statement reads its condition up to the block. -/
theorem Parser.conditional_reads_condition :
    conditional (outermost options) (row ++ endings.block) =
      .done (.conditional (.mk value []) [] none) [] [] := by
  have hbranch : branch (outermost options) (row ++ endings.block) =
      .done (.mk value []) [] [] := by
    unfold branch
    rw [bind_of_silent _ (condition_reads hrow hstatement),
      bind_of_silent _ (endings.block_reads options)]
    rfl
  unfold conditional
  rw [bind_of_silent _ hbranch]
  rfl

/-- So does a loop over a condition. -/
theorem Parser.whileLoop_reads_condition :
    whileLoop (outermost options) (row ++ endings.block) = .done (.whileLoop value []) [] [] := by
  unfold whileLoop
  rw [bind_of_silent _ (condition_reads hrow hstatement),
    bind_of_silent _ (endings.block_reads options)]
  rfl

/-- A loop over the items of something reads what these are up to the block. -/
theorem Parser.forLoop_reads_iterable {letWord name inWord : Lexeme}
    (hlet : letWord.isWordOf ["let"] = true) (hname : name.kind = .identifier)
    (hin : inWord.isWordOf ["in"] = true) :
    forLoop (outermost options) (letWord :: name :: inWord :: (row ++ endings.block)) =
      .done (.forLoop .variable name.text value []) [] [] := by
  rw [forLoop_behind_in hlet hname hin, bind_of_silent _ (condition_reads hrow hstatement),
    bind_of_silent _ (endings.block_reads options)]
  rfl

end Conditions

section Tokens

/-- Tokens before the end that are accepted as the expression of a statement, with no brace behind
an identifier outside all groups, are accepted as the condition of a conditional statement or a
loop, and as what a loop goes over: the condition is that expression, and the brace opens the
body. -/
theorem parseTokens_conditions {condition : List Token} {semicolon opening closing : Token}
    {source : Option String} {options : Options} {value : Expression}
    (hinside : ∀ token ∈ condition, Input.isInside token = true)
    (hsemicolon : semicolon.isMarkOf [";"] = true) (hopening : opening.isMarkOf ["\x7b"] = true)
    (hclosing : closing.isMarkOf ["\x7d"] = true)
    (hparsed : parseTokens (condition ++ [semicolon]) source options =
      .ok ([.expression value], []))
    (hbraces : BracesInside (condition.map Token.toLexeme)) :
    (∀ word : Token, word.isWordOf ["if"] = true →
      parseTokens (word :: condition ++ [opening, closing]) source options =
        .ok ([.conditional (.mk value []) [] none], [])) ∧
    (∀ word : Token, word.isWordOf ["while"] = true →
      parseTokens (word :: condition ++ [opening, closing]) source options =
        .ok ([.whileLoop value []], [])) ∧
    ∀ forWord letWord name inWord : Token, forWord.isWordOf ["for"] = true →
      letWord.isWordOf ["let"] = true → name.kind = .identifier → inWord.isWordOf ["in"] = true →
      parseTokens (forWord :: letWord :: name :: inWord :: condition ++ [opening, closing]) source
        options = .ok ([.forLoop .variable name.text value []], []) := by
  let endings : Endings :=
    ⟨semicolon.toLexeme, opening.toLexeme, closing.toLexeme, hsemicolon, hopening, hclosing⟩
  have hstatement : Parser.program options
      (condition.map Token.toLexeme ++ [endings.semicolon]) = .done [.expression value] [] [] := by
    have hall : ∀ token ∈ condition ++ [semicolon], Input.isInside token = true :=
      List.forall_mem_append.mpr
        ⟨hinside, List.forall_mem_singleton.mpr (Input.isInside_of_isMarkOf hsemicolon)⟩
    have hprogram := program_of_parseTokens hparsed
    rwa [Input.lexemes_of_inside hall, List.map_append] at hprogram
  -- whatever begins with such words and goes on with the condition and the block
  have hparses (words : List Token) {word : Token} {item : Statement}
      (hwords : ∀ token ∈ word :: words, Input.isInside token = true)
      (hitem : Parser.statement options (outermost options) (word.toLexeme ::
        (words.map Token.toLexeme ++ (condition.map Token.toLexeme ++ endings.block))) =
          .done item [] []) :
      parseTokens (word :: words ++ condition ++ [opening, closing]) source options =
        .ok ([item], []) := by
    have hblock : ∀ token ∈ [opening, closing], Input.isInside token = true := by
      simp [Input.isInside_of_isMarkOf hopening, Input.isInside_of_isMarkOf hclosing]
    have hlexemes := Input.lexemes_of_inside (List.forall_mem_append.mpr
      ⟨List.forall_mem_append.mpr ⟨hwords, hinside⟩, hblock⟩)
    have hprogram := program_of_statement hitem
    have hread : Parser.program options
        (Input.ofTokens (word :: words ++ condition ++ [opening, closing])).lexemes =
          .done [item] [] [] := by
      rw [hlexemes]
      simpa [endings, Endings.block] using hprogram
    exact parseTokens_of_done source hread
  refine ⟨fun word hword => ?_, fun word hword => ?_,
    fun forWord letWord name inWord hfor hlet hname hin => ?_⟩
  · refine hparses [] (by simpa using Input.isInside_of_isWordOf hword) ?_
    rw [statement_of_word hword rfl]
    exact conditional_reads_condition hbraces hstatement
  · refine hparses [] (by simpa using Input.isInside_of_isWordOf hword) ?_
    rw [statement_of_word hword rfl]
    exact whileLoop_reads_condition hbraces hstatement
  · have hidentifier : Input.isInside name = true := bne_iff_ne.mpr (by simp [hname])
    refine hparses [letWord, name, inWord] ?_ ?_
    · simp [Input.isInside_of_isWordOf hfor, Input.isInside_of_isWordOf hlet, hidentifier,
        Input.isInside_of_isWordOf hin]
    · rw [statement_of_word hfor rfl]
      exact forLoop_reads_iterable hbraces hstatement hlet hname hin

/-- A call with a struct literal as its argument, as a statement and as a condition. -/
theorem parseTokens_conditions_call :
    let token (kind : Kind) (text : String) : Token := ⟨⟨kind, text⟩, .start "main"⟩
    let condition := [token .identifier "f", token .symbol "(", token .identifier "P",
      token .symbol "\x7b", token .symbol "\x7d", token .symbol ")"]
    let value : Expression := .call ⟨"f", []⟩ [.structLiteral "P" []]
    parseTokens (condition ++ [token .symbol ";"]) none {} = .ok ([.expression value], []) ∧
      BracesInside (condition.map Token.toLexeme) ∧
      parseTokens (token .keyword "if" :: condition ++ [token .symbol "\x7b", token .symbol "\x7d"])
        none {} = .ok ([.conditional (.mk value []) [] none], []) := by
  intro token condition value
  have hparsed : parseTokens (condition ++ [token .symbol ";"]) none {} =
      .ok ([.expression value], []) := rfl
  have hbraces : BracesInside (condition.map Token.toLexeme) := by decide
  have hinside : ∀ token ∈ condition, Input.isInside token = true := by decide
  exact ⟨hparsed, hbraces, (parseTokens_conditions hinside rfl rfl rfl hparsed hbraces).1 _ rfl⟩

/-- What stands behind the end of the input is part of no statement, but it separates a condition
from its block: then the statement is accepted and the condition is not. -/
theorem parseTokens_conditions_behind_end :
    let token (kind : Kind) (text : String) : Token := ⟨⟨kind, text⟩, .start "main"⟩
    let condition := [token .identifier "x", token .symbol ";", token .endOfInput ""]
    let value : Expression := .name ⟨"x", []⟩
    parseTokens (condition ++ [token .symbol ";"]) none {} = .ok ([.expression value], []) ∧
      BracesInside (condition.map Token.toLexeme) ∧
      parseTokens (token .keyword "if" :: condition ++ [token .symbol "\x7b", token .symbol "\x7d"])
        none {} ≠ .ok ([.conditional (.mk value []) [] none], []) := by
  intro token condition value
  have hbraces : BracesInside (condition.map Token.toLexeme) := by decide
  refine ⟨rfl, hbraces, fun hparsed => ?_⟩
  obtain ⟨reports, hprogram, -⟩ := parseTokens_eq_ok hparsed
  cases hprogram

end Tokens

end BraceLang
