import BraceLang.Proofs.Construction.Errors
import BraceLang.Proofs.Outline.Basic
import BraceLang.Proofs.Parsing.Rounds
import BraceLang.Proofs.Recovery.Statements

/-!
# Resynchronisation at a semicolon

Behind any lexemes without brackets and a semicolon a program is parsed as it is parsed alone. No
statement takes anything from it, so the rounds that read the statements come to its beginning; from
there on they are the rounds of the program.
-/

namespace BraceLang

open BraceLang.Parser

variable {α β : Type} {program unread rest : List Lexeme}

section Beginnings

/-- A statement that fails is recovered with a report. -/
theorem Reply.Faulty.passing_recovered {parser : Parser Statement}
    (hparser : (parser unread).Faulty) : (passing (recovered parser) unread).Faulty := by
  intro value rest hdone
  unfold passing recovered at hdone
  cases hrun : parser unread with
  | done item middle reports =>
    rw [hrun] at hdone hparser
    obtain ⟨-, -, rfl⟩ := Reply.done.inj hdone
    exact hparser item middle rfl
  | failed report middle reports =>
    rw [hrun] at hdone
    obtain ⟨-, -, hreports⟩ := Reply.done.inj hdone
    simp at hreports
  | stopped halt =>
    rw [hrun] at hdone
    cases hdone

/-- A mark that goes on with what is before it begins no expression, unless it is a minus. -/
theorem primary_faulty {inside : Option Layer} {literals : Bool} {lexeme : Lexeme}
    (hmark : lexeme.isMarkOf continuingMarks = true) (hminus : lexeme.isMarkOf ["-"] = false) :
    (primary inside literals (lexeme :: rest)).Faulty := by
  have hno : ∀ mark ∈ continuingMarks, mark ≠ "-" →
      mark ≠ "(" ∧ mark ≠ "[" ∧ UnaryOperator.ofSpelling? mark = none := by decide
  simp only [Lexeme.isMarkOf, Bool.and_eq_true, List.contains_iff_mem] at hmark
  obtain ⟨hismark, hcontinuing⟩ := hmark
  obtain ⟨hgroup, harray, hunary⟩ :=
    hno _ hcontinuing (by simpa [Lexeme.isMarkOf, hismark] using hminus)
  rw [primary_noExpression hismark hgroup harray hunary]
  exact noExpression_faulty _

/-- A binary operation that begins with a fault is faulty. -/
theorem binary_faulty {operand : Parser Expression} (hoperand : (operand unread).Faulty)
    (count : Nat) : (binary operand count unread).Faulty := by
  induction count with
  | zero => exact hoperand
  | succ count ih => exact .bind ih

/-- A statement that begins with such a mark is faulty. -/
theorem statement_faulty {options : Options} {inside : Option Layer} {lexeme : Lexeme}
    (hmark : lexeme.isMarkOf continuingMarks = true) (hminus : lexeme.isMarkOf ["-"] = false) :
    (statement options inside (lexeme :: rest)).Faulty := by
  have hword : lexeme.isWord = true → behindWord options inside lexeme.text = none := by
    intro hword
    rw [Lexeme.isMarkOf_of_isWord hword] at hmark
    cases hmark
  rw [statement_of_expression hword]
  exact .bind (binary_faulty (.bind (primary_faulty hmark hminus)) 7)

/-- A program that is parsed without a report and does not begin with a minus is well begun. -/
theorem wellBegun_of_program {options : Options} {statements : List Statement}
    (hprogram : Parser.program options program = .done statements rest [])
    (hminus : ∀ lexeme ∈ program.head?, lexeme.isMarkOf ["-"] = false) : WellBegun program := by
  intro lexeme hlexeme
  refine Bool.eq_false_iff.mpr fun hmark => ?_
  cases program with
  | nil => cases hlexeme
  | cons first others =>
    obtain rfl : first = lexeme := by simpa using hlexeme
    have hround : (nextStatement (statement options (outermost options)) [] []
        (first :: others)).Faulty := by
      rw [nextStatement_apply, if_neg (by simp [Lexeme.isMarkOf])]
      exact .bind (.passing_recovered (statement_faulty hmark (hminus first rfl)))
    have hfaulty : (Parser.program options (first :: others)).Faulty := .bind (.bind hround)
    exact hfaulty statements rest hprogram

end Beginnings

/-- From any place in a stretch the rounds that read statements come to the program, whose own
rounds are the last of them. Nothing is reported behind the beginning of the program. -/
theorem Rounds.resynchronised {parser : Parser Statement} {items last own : List Statement}
    {reports : List Report} (hhalts : parser.Halts program) (hruns : parser.Runs)
    (hown : Rounds (nextStatement parser []) [] program own [] [])
    (hrounds : Rounds (nextStatement parser []) items unread last rest reports)
    (hunread : Reached program unread) :
    (∃ before, last = own ++ before) ∧ ∀ report ∈ reports, program.length ≤ report.left := by
  have hheld (held : List Statement) :
      Rounds (nextStatement parser []) held program (own ++ held) [] [] := hown.append held
  induction hrounds with
  | @finish items last unread rest reports hround =>
    rcases hunread with hstretch | rfl
    · obtain ⟨-, hends, -⟩ := nextStatement_finish hround
      obtain ⟨lexeme, others, rfl⟩ := hstretch.exists_cons
      simp [Lexeme.isMarkOf] at hends
    · obtain ⟨rfl, -, rfl⟩ := (Rounds.finish hround).unique (hheld items)
      exact ⟨⟨_, rfl⟩, by simp⟩
  | @again items next last unread middle rest earlier later hround hrest ih =>
    rcases hunread with hstretch | rfl
    · obtain ⟨item, rfl, hitem, -⟩ := nextStatement_again hround
      have hmiddle := Brings.passing_recovered hhalts unread hstretch
      have hrun := hruns.recovered.passing unread
      rw [hitem] at hmiddle hrun
      obtain ⟨hlast, hlater⟩ := ih hmiddle
      refine ⟨hlast, fun report hreport => ?_⟩
      rcases List.mem_append.mp hreport with hearlier | hmem
      · exact Nat.le_trans hmiddle.length_le (Run.length_le_left hrun hearlier)
      · exact hlater report hmem
    · obtain ⟨rfl, -, hreports⟩ := (Rounds.again hround hrest).unique (hheld items)
      exact ⟨⟨_, rfl⟩, by simp [hreports]⟩

/-- The rounds of the statements of a program that comes to a value. -/
theorem rounds_of_program {options : Options} {statements : List Statement}
    {reports : List Report}
    (hprogram : Parser.program options unread = .done statements rest reports) :
    ∃ items, statements = items.reverse ∧
      Rounds (nextStatement (statement options (outermost options)) []) [] unread items rest
        reports := by
  obtain ⟨items, middle, earlier, later, hitems, hlast, rfl⟩ := exists_of_bind_eq_done hprogram
  obtain ⟨rfl, rfl, rfl⟩ := Reply.done.inj hlast
  rw [List.append_nil]
  exact ⟨items, rfl, .of_repeating hitems⟩

/-- Behind a stretch a program is read as it is read alone, and nothing is reported behind its
beginning. -/
theorem program_resynchronised {options : Options} {own all : List Statement}
    {reports : List Report} (hown : Parser.program options program = .done own [] [])
    (hminus : ∀ lexeme ∈ program.head?, lexeme.isMarkOf ["-"] = false)
    (hall : Parser.program options unread = .done all rest reports)
    (hunread : Stretch program unread) :
    (∃ before, all = before ++ own) ∧ ∀ report ∈ reports, program.length ≤ report.left := by
  have hbegun := wellBegun_of_program hown hminus
  have hinside : InsideHalts program (outermost options) :=
    layerInside_halts hbegun options maxNesting
  have hruns : (statement options (outermost options)).Runs :=
    (insideOutlines options maxNesting).statement.runs
  obtain ⟨ownItems, rfl, hownRounds⟩ := rounds_of_program hown
  obtain ⟨items, rfl, hrounds⟩ := rounds_of_program hall
  obtain ⟨⟨before, rfl⟩, hleft⟩ := Rounds.resynchronised (hinside.statement hbegun)
    hruns hownRounds hrounds (.inl hunread)
  exact ⟨⟨before.reverse, List.reverse_append⟩, hleft⟩

/-- An input has as many lexemes as tokens. -/
theorem Input.length_lexemes (input : Input) : input.lexemes.length = input.tokens.size := by
  simp [lexemes]

/-- The token of an input at a position that is not behind its first end token. -/
theorem Input.getElem?_eq_tokenAt {tokens : List Token} {left : Nat}
    (hinside : (ofTokens tokens).tokens.size - left < tokens.length) :
    tokens[(ofTokens tokens).tokens.size - left]? = some ((ofTokens tokens).tokenAt left) := by
  have hsize : (ofTokens tokens).tokens.size = (tokens.takeWhile isInside).length := by
    simp [ofTokens]
  have hsplit := List.takeWhile_append_dropWhile (p := isInside) (l := tokens)
  have hget (position : Nat) :
      (ofTokens tokens).tokens[position]? = (tokens.takeWhile isInside)[position]? := by
    simp [ofTokens]
  rw [tokenAt, hget, hsize]
  rw [hsize] at hinside
  generalize hposition : (tokens.takeWhile isInside).length - left = position at hinside ⊢
  conv_lhs => rw [← hsplit]
  rcases Nat.lt_or_ge position (tokens.takeWhile isInside).length with hlt | hge
  · rw [List.getElem?_append_left hlt, List.getElem?_eq_getElem hlt, Option.getD_some]
  · obtain rfl : position = (tokens.takeWhile isInside).length := by omega
    rw [List.getElem?_append_right hge, Nat.sub_self, List.getElem?_eq_none hge, Option.getD_none]
    cases hrest : tokens.dropWhile isInside with
    | nil =>
      rw [hrest, List.append_nil] at hsplit
      rw [hsplit] at hinside
      exact absurd hinside (Nat.lt_irrefl _)
    | cons token others => simp [ofTokens, hrest]

/-- The end token of an input is not inside it. -/
theorem Input.isInside_ending (tokens : List Token) :
    isInside (ofTokens tokens).ending = false := by
  cases hrest : tokens.dropWhile isInside with
  | nil => simp [ofTokens, hrest, isInside, Token.ending]
  | cons token others =>
    have hhead := List.head?_dropWhile_not isInside tokens
    simpa [hrest, ofTokens] using hhead

/-- The token where so many are unread is what is found there. -/
theorem Input.found_tokenAt (tokens : List Token) (left : Nat) :
    ((ofTokens tokens).tokens[(ofTokens tokens).tokens.size - left]?).map Token.toLexeme =
      ((ofTokens tokens).tokenAt left).found := by
  rw [tokenAt]
  cases hget : (ofTokens tokens).tokens[(ofTokens tokens).tokens.size - left]? with
  | none => simp [Token.found, isInside_ending]
  | some token =>
    have hmem : token ∈ tokens.takeWhile isInside := by
      simpa [ofTokens] using Array.mem_of_getElem? hget
    simp [Token.found, List.mem_takeWhile_imp hmem]

/-- A report about a program names the token at its place, which is not behind the end. -/
theorem Input.report_of_program {tokens : List Token} {options : Options}
    {statements : List Statement} {reports : List Report} {report : Report}
    (hprogram : Parser.program options (ofTokens tokens).lexemes = .done statements rest reports)
    (hreport : report ∈ reports) :
    report.left ≤ (ofTokens tokens).tokens.size ∧
      report.complaint.found = ((ofTokens tokens).tokenAt report.left).found := by
  have hrun := (programOutline options).runs (ofTokens tokens).lexemes
  rw [hprogram] at hrun
  obtain ⟨reached, hreached, habout⟩ := Run.isAbout hrun hreport
  constructor
  · rw [habout.left, ← length_lexemes]
    exact hreached.length_le
  · rw [habout.found_eq hreached]
    exact found_tokenAt tokens report.left

/-- The lexemes of an input whose first tokens do not end it. -/
theorem Input.lexemes_ofTokens_append {before : List Token} (rest : List Token)
    (hinside : ∀ token ∈ before, isInside token = true) :
    (ofTokens (before ++ rest)).lexemes =
      before.map Token.toLexeme ++ (ofTokens rest).lexemes := by
  simp only [lexemes_ofTokens, List.takeWhile_append_of_pos hinside, List.map_append]

/-- The lexemes of an input can be read if its tokens can. -/
theorem Input.isReadable_of_tokens {tokens : List Token}
    (hreadable : ∀ token ∈ tokens, token.IsReadable) :
    ∀ lexeme ∈ (ofTokens tokens).lexemes, lexeme.IsReadable := by
  intro lexeme hmem
  rw [lexemes_ofTokens] at hmem
  obtain ⟨token, htoken, rfl⟩ := List.mem_map.mp hmem
  exact hreadable token (List.takeWhile_subset _ htoken)

/-- The first lexeme of an input is that of its first token. -/
theorem Input.head_lexemes {tokens : List Token} {lexeme : Lexeme}
    (hlexeme : lexeme ∈ (ofTokens tokens).lexemes.head?) :
    ∃ token ∈ tokens.head?, token.toLexeme = lexeme := by
  rw [lexemes_ofTokens, List.head?_map, List.head?_takeWhile] at hlexeme
  obtain ⟨token, htoken, rfl⟩ := Option.map_eq_some_iff.mp hlexeme
  exact ⟨token, (Option.filter_eq_some_iff.mp htoken).1, rfl⟩

section Inputs

variable {garbage program : List Token} {semicolon : Token}
  (hgarbage : ∀ token ∈ garbage, token.kind ≠ .endOfInput ∧ token.isMarkOf brackets = false)
  (hsemicolon : semicolon.isMarkOf [";"] = true)
include hgarbage hsemicolon

/-- Behind tokens that do not end the input the lexemes of a program are those that it has alone. -/
theorem Input.lexemes_behind_semicolon : (ofTokens (garbage ++ semicolon :: program)).lexemes =
    garbage.map Token.toLexeme ++ semicolon.toLexeme :: (ofTokens program).lexemes := by
  have hgarbageInside : ∀ token ∈ garbage, isInside token = true := fun token hmem => by
    simpa [isInside] using (hgarbage token hmem).1
  have hsemicolonInside : ∀ token ∈ [semicolon], isInside token = true :=
    List.forall_mem_singleton.mpr (isInside_of_isMarkOf hsemicolon)
  rw [lexemes_ofTokens_append _ hgarbageInside]
  exact congrArg _ (lexemes_ofTokens_append program hsemicolonInside)

/-- They are a stretch and those of the program. -/
theorem Input.stretch_behind_semicolon :
    Stretch (ofTokens program).lexemes (ofTokens (garbage ++ semicolon :: program)).lexemes := by
  rw [lexemes_behind_semicolon hgarbage hsemicolon]
  exact .of_append (by simpa using fun token hmem => (hgarbage token hmem).2) hsemicolon

/-- Garbage, semicolon and program are counted together, up to the end of the program. -/
theorem Input.size_behind_semicolon :
    (ofTokens (garbage ++ semicolon :: program)).tokens.size =
      garbage.length + 1 + (ofTokens program).lexemes.length := by
  rw [← length_lexemes, lexemes_behind_semicolon hgarbage hsemicolon, List.length_append,
    List.length_map, List.length_cons]
  omega

end Inputs

/-- Behind any tokens without brackets and a semicolon a program that is parsed without a
diagnostic, and does not begin with a minus, is parsed as it is parsed alone: its statements are the
last ones. Every report is about a token that does not stand behind the first one of the program:
the token at its position is the one that it names and at whose place it is shown. -/
theorem parseTokens_resynchronised {garbage program : List Token} {semicolon : Token}
    {options : Options} {alone : Option String} {statements : List Statement}
    (hgarbage : ∀ token ∈ garbage, token.kind ≠ .endOfInput ∧ token.isMarkOf brackets = false)
    (hsemicolon : semicolon.isMarkOf [";"] = true) (hprogram : program ≠ [])
    (hminus : ∀ token ∈ program.head?, token.isMarkOf ["-"] = false)
    (hreadable : ∀ token ∈ garbage ++ program, token.IsReadable)
    (hparsed : parseTokens program alone options = .ok (statements, []))
    (source : Option String) :
    let tokens := garbage ++ semicolon :: program
    let input := Input.ofTokens tokens
    ∃ before reports,
      parseTokens tokens source options =
        .ok (before ++ statements, (input.reportTo reports (.empty source)).reported) ∧
      input.parse options = .ok ⟨before ++ statements, reports⟩ ∧
      ∀ report ∈ reports, ∃ position token,
        position + report.left = input.tokens.size ∧ position ≤ garbage.length + 1 ∧
        tokens[position]? = some token ∧ report.complaint.found = token.found ∧
          input.placeOf report = token.location := by
  intro tokens input
  have hown := program_of_parseTokens hparsed
  have hall : ∀ token ∈ tokens, token.IsReadable := by
    intro token hmem
    rcases List.mem_append.mp hmem with hbefore | hbehind
    · exact hreadable token (List.mem_append_left program hbefore)
    · rcases List.mem_cons.mp hbehind with rfl | hlater
      · exact Lexeme.isReadable_of_isMarkOf hsemicolon
      · exact hreadable token (List.mem_append_right garbage hlater)
  obtain ⟨all, reports, hreply⟩ :=
    program_of_isReadable options (Input.isReadable_of_tokens hall)
  have hfirst : ∀ lexeme ∈ (Input.ofTokens program).lexemes.head?,
      lexeme.isMarkOf ["-"] = false := by
    intro lexeme hlexeme
    obtain ⟨token, htoken, rfl⟩ := Input.head_lexemes hlexeme
    exact hminus token htoken
  obtain ⟨⟨before, rfl⟩, hleft⟩ := program_resynchronised hown hfirst hreply
    (Input.stretch_behind_semicolon hgarbage hsemicolon)
  refine ⟨before, reports, parseTokens_of_done source hreply, ?_, fun report hreport => ?_⟩
  · rw [Input.parse, hreply]
  -- at least the lexemes of the program are unread where something is reported
  have hsize : input.tokens.size =
      garbage.length + 1 + (Input.ofTokens program).lexemes.length :=
    Input.size_behind_semicolon hgarbage hsemicolon
  have hposition : input.tokens.size - report.left ≤ garbage.length + 1 := by
    have hle := hleft report hreport
    omega
  have hbefore : input.tokens.size - report.left < tokens.length := by
    have hpositive := List.length_pos_iff.mpr hprogram
    simp only [tokens, List.length_append, List.length_cons]
    omega
  obtain ⟨hle, hfound⟩ := Input.report_of_program hreply hreport
  exact ⟨input.tokens.size - report.left, input.tokenAt report.left, Nat.sub_add_cancel hle,
    hposition, Input.getElem?_eq_tokenAt hbefore, hfound, rfl⟩

/-- The semicolon is taken for an operand, and the one that is missed is reported at the name behind
it; the statement of that name is parsed nevertheless. -/
theorem parseTokens_resynchronised_operand :
    let garbage := [⟨.keyword, "let"⟩, ⟨.identifier, "x"⟩, ⟨.operator, "="⟩, ⟨.number, "1"⟩,
      ⟨.operator, "+"⟩].map fun lexeme => Token.mk lexeme (.start "main")
    let semicolon := Token.mk ⟨.symbol, ";"⟩ (.start "main")
    let program := [⟨.identifier, "y"⟩, ⟨.symbol, ";"⟩].map fun lexeme =>
      Token.mk lexeme (.start "main")
    let input := Input.ofTokens (garbage ++ semicolon :: program)
    parseTokens program none {} = .ok ([.expression (.name ⟨"y", []⟩)], []) ∧
    ∃ before reports,
      input.parse {} = .ok ⟨before ++ [.expression (.name ⟨"y", []⟩)], reports⟩ ∧
      ∀ report ∈ reports, ∃ position ≤ 6, position + report.left = input.tokens.size := by
  intro garbage semicolon program input
  have hreply : Parser.program {} [⟨.identifier, "y"⟩, ⟨.symbol, ";"⟩] =
      .done [.expression (.name ⟨"y", []⟩)] [] [] := rfl
  have hparsed : parseTokens program none {} = .ok ([.expression (.name ⟨"y", []⟩)], []) :=
    (show parseTokens program none {} = _ from parseTokens_of_done none hreply).trans rfl
  have hnumbers : ∀ token ∈ garbage ++ program, token.kind = .number → token.text = "1" := by
    decide
  have hreadable : ∀ token ∈ garbage ++ program, token.IsReadable := by
    intro token hmem hkind
    rw [hnumbers token hmem hkind]
    exact ⟨_, rfl⟩
  obtain ⟨before, reports, -, hparse, hreports⟩ :=
    parseTokens_resynchronised (by decide) (by decide : semicolon.isMarkOf [";"] = true)
      (by decide) (by decide) hreadable hparsed none
  refine ⟨hparsed, before, reports, hparse, fun report hreport => ?_⟩
  obtain ⟨position, -, hposition, hle, -⟩ := hreports report hreport
  exact ⟨position, hle, hposition⟩

end BraceLang
