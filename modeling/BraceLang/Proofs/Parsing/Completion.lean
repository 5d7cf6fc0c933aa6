import BraceLang.Parser.Session
import BraceLang.Proofs.Parsing.Rounds
import BraceLang.Proofs.Spelling.Programs
import Mathlib.Data.List.TakeWhile

/-!
# Programs are read to their end

The parser of a program never fails: a statement that fails is recovered, and a repetition of
rounds that never fail does not fail. The account of a program adds that a reply leaves nothing
unread and that a stop is the fault of a number that cannot be read. Unless nesting may go too deep
no number is passed unread, so that such a number stops the parser without fail.
-/

namespace BraceLang

variable {α β σ : Type}

/-- A reply that is no failure. -/
def Reply.Recovers : Reply α → Prop
  | .failed .. => False
  | .done .. | .stopped _ => True

/-- A parser that recovers does not fail. -/
theorem Reply.Recovers.ne_failed {reply : Reply α} {report : Report} {rest : List Lexeme}
    {reports : List Report} (hrecovers : reply.Recovers) : reply ≠ .failed report rest reports := by
  rintro rfl
  exact hrecovers

/-- What follows a reply that is no failure decides whether there is one. -/
theorem Reply.Recovers.bind {parser : Parser α} {next : α → Parser β} {unread : List Lexeme}
    (hparser : (parser unread).Recovers) (hnext : ∀ value rest, (next value rest).Recovers) :
    ((parser >>= next) unread).Recovers := by
  cases hreply : parser unread with
  | done value rest reports =>
    have hlater := hnext value rest
    rw [Parser.bind_of_done next hreply]
    cases hresult : next value rest with
    | failed => simp [hresult, Recovers] at hlater
    | done | stopped => trivial
  | failed => simp [hreply, Recovers] at hparser
  | stopped halt =>
    rw [Parser.bind_of_stopped next hreply]
    trivial

/-- A repetition of rounds that never fail does not fail. -/
theorem Reply.Recovers.repeating {round : σ → Parser (Turn σ)}
    (hround : ∀ state unread, (round state unread).Recovers) (state : σ) (unread : List Lexeme) :
    (Parser.repeating round state unread).Recovers := by
  have hrounds (rounds : List Lexeme) (state : σ) (unread : List Lexeme) :
      (Parser.repeatFor round rounds state unread).Recovers := by
    induction rounds generalizing state unread with
    | nil =>
      refine Reply.Recovers.bind (hround state unread) fun turn rest => ?_
      cases turn <;> trivial
    | cons lexeme rounds ih =>
      refine Reply.Recovers.bind (hround state unread) fun turn rest => ?_
      cases turn with
      | again next => exact ih next rest
      | finish last => trivial
  exact hrounds unread state unread

/-- A statement whose failure is recovered does not fail. -/
theorem Reply.Recovers.passing_recovered (parser : Parser Statement) (unread : List Lexeme) :
    (Parser.passing (Parser.recovered parser) unread).Recovers := by
  unfold Parser.passing Parser.recovered
  cases parser unread <;> trivial

/-- Statements never fail. -/
theorem Reply.Recovers.statements (parser : Parser Statement) (closing : List String)
    (unread : List Lexeme) : (Parser.statements parser closing unread).Recovers := by
  have hround (items : List Statement) (unread : List Lexeme) :
      (Parser.nextStatement parser closing items unread).Recovers := by
    rw [Parser.nextStatement_apply]
    split
    · trivial
    · exact .bind (.passing_recovered parser unread) fun _ _ => trivial
  exact .bind (.repeating hround [] unread) fun _ _ => trivial

/-- A program never fails. -/
theorem program_recovers (options : Options) (lexemes : List Lexeme) :
    (Parser.program options lexemes).Recovers := .statements _ _ lexemes

/-- Where no token ends an input, all of them are read. -/
theorem Input.lexemes_of_inside {tokens : List Token}
    (hinside : ∀ token ∈ tokens, isInside token = true) :
    (ofTokens tokens).lexemes = tokens.map Token.toLexeme := by
  rw [lexemes_ofTokens, List.takeWhile_eq_self_iff.mpr hinside]

/-- A mark does not end an input. -/
theorem Input.isInside_of_isMarkOf {token : Token} {marks : List String}
    (hmark : token.isMarkOf marks = true) : isInside token = true :=
  bne_iff_ne.mpr (Lexeme.kind_of_isMarkOf hmark)

/-- A word does not end an input. -/
theorem Input.isInside_of_isWordOf {token : Token} {words : List String}
    (hword : token.isWordOf words = true) : isInside token = true := by
  refine bne_iff_ne.mpr fun hkind => ?_
  have hisWord := Lexeme.isWord_of_isWordOf hword
  simp [Lexeme.isWord, hkind] at hisWord

/-- The program that is read from the lexemes of an input is what is parsed, and its reports are
the diagnostics. -/
theorem parseTokens_of_done {tokens : List Token} (source : Option String) {options : Options}
    {program : List Statement} {rest : List Lexeme} {reports : List Report}
    (hreply :
      Parser.program options (Input.ofTokens tokens).lexemes = .done program rest reports) :
    parseTokens tokens source options =
      .ok (program, ((Input.ofTokens tokens).reportTo reports (.empty source)).reported) := by
  simp only [parseTokens, Input.parse, hreply]
  rfl

/-- What stops the parsing of the lexemes of an input stops the parsing of its tokens. -/
theorem parseTokens_of_stopped {tokens : List Token} (source : Option String) {options : Options}
    {halt : Halt}
    (hreply : Parser.program options (Input.ofTokens tokens).lexemes = .stopped halt) :
    parseTokens tokens source options = .error halt := by
  simp only [parseTokens, Input.parse, hreply]
  rfl

/-- What is parsed without a stop is a program that leaves nothing unread, and its reports are
the diagnostics. -/
theorem parseTokens_eq_ok {tokens : List Token} {source : Option String} {options : Options}
    {program : List Statement} {diagnostics : List Diagnostic}
    (hparsed : parseTokens tokens source options = .ok (program, diagnostics)) :
    ∃ reports, Parser.program options (Input.ofTokens tokens).lexemes = .done program [] reports ∧
      diagnostics = ((Input.ofTokens tokens).reportTo reports (.empty source)).reported := by
  have haccount := program_accounts options (Input.ofTokens tokens).lexemes
  simp only [parseTokens, Input.parse] at hparsed
  cases hreply : Parser.program options (Input.ofTokens tokens).lexemes with
  | done statements rest reports =>
    rw [hreply] at haccount hparsed
    obtain ⟨passed, -, -, rfl, -⟩ := haccount
    obtain ⟨rfl, rfl⟩ := Prod.mk.inj (Except.ok.inj hparsed)
    exact ⟨reports, rfl, rfl⟩
  | failed => exact absurd hreply (program_recovers options _).ne_failed
  | stopped halt =>
    rw [hreply] at hparsed
    cases hparsed

/-- What is parsed without a diagnostic is a program that is read without a report. -/
theorem program_of_parseTokens {tokens : List Token} {source : Option String} {options : Options}
    {program : List Statement} (hparsed : parseTokens tokens source options = .ok (program, [])) :
    Parser.program options (Input.ofTokens tokens).lexemes = .done program [] [] := by
  obtain ⟨reports, hreply, hsilent⟩ := parseTokens_eq_ok hparsed
  rwa [Input.reportTo_reported_eq_nil.mp hsilent.symm] at hreply

/-- A program whose numbers can be read comes to a value, and nothing is left unread. -/
theorem program_of_isReadable (options : Options) {lexemes : List Lexeme}
    (hreadable : ∀ lexeme ∈ lexemes, lexeme.IsReadable) :
    ∃ statements reports, Parser.program options lexemes = .done statements [] reports := by
  have haccount := program_accounts options lexemes
  cases hreply : Parser.program options lexemes with
  | done statements rest reports =>
    rw [hreply] at haccount
    obtain ⟨passed, -, -, rfl, -⟩ := haccount
    exact ⟨statements, reports, rfl⟩
  | failed => exact absurd hreply (program_recovers options lexemes).ne_failed
  | stopped halt =>
    rw [hreply] at haccount
    obtain ⟨error, -, lexeme, hmem, hunreadable⟩ := haccount
    exact absurd (hreadable lexeme hmem)
      ((Lexeme.not_isReadable_iff lexeme).mpr ⟨error, hunreadable⟩)

/-- How many tokens a session has passed. -/
def Session.position (session : Session) : Nat :=
  session.input.tokens.size - session.unread.length

end BraceLang
