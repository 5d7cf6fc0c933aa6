import BraceLang.Proofs.Lockstep.Statements
import BraceLang.Proofs.Parsing.Completion
import BraceLang.Proofs.Parsing.Stages
import BraceLang.Proofs.Recovery.Resynchronisation

/-!
# Programs one behind the other

A program that is parsed without a report and ends with a semicolon is parsed in the same way in
front of any lexemes: no question that is asked on the way has another answer for what is behind the
semicolon. What follows is read by further rounds, which put their statements in front of those that
are held, and so it is parsed as it is parsed alone.
-/

namespace BraceLang

open BraceLang.Parser

variable {α β : Type}

/-- Inputs that end with a semicolon, in front of a program. -/
def Pairing.inFront (program : List Lexeme) : Pairing where
  Paired unread copy := copy = unread ++ program ∧ unread.getLast?.any (·.isMarkOf [";"]) = true
  Over copy := copy = program
  longer := program.length
  head := by
    rintro unread copy ⟨rfl, hlast⟩
    cases unread with
    | nil => cases hlast
    | cons lexeme rest => exact .some (.same lexeme)
  tail := by
    rintro unread copy ⟨rfl, hlast⟩
    cases unread with
    | nil => cases hlast
    | cons lexeme rest =>
      cases rest with
      | nil => exact .inr ⟨hlast, rfl, rfl⟩
      | cons second rest => exact .inl ⟨rfl, hlast⟩
  length_eq := by
    rintro unread copy ⟨rfl, -⟩
    exact List.length_append
  length_over hover := congrArg List.length hover

section Held

variable {statement : Parser Statement} {closing : List String}

/-- A repetition of statements puts them in front of those that are held, and may take more rounds
than it needs. -/
theorem Parser.repeatFor_held (items held : List Statement) (unread : List Lexeme)
    {rounds more : List Lexeme} (hmore : rounds.length ≤ more.length)
    (hends : repeatFor (nextStatement statement closing) rounds items unread ≠ .stopped .endless) :
    repeatFor (nextStatement statement closing) more (items ++ held) unread =
      (repeatFor (nextStatement statement closing) rounds items unread).map (· ++ held) := by
  by_cases hlast : unread.head?.isNone ∨ unread.head?.any (·.isMarkOf closing)
  · have hfinish (items : List Statement) : nextStatement statement closing items unread =
        .done (.finish items) unread [] := by rw [nextStatement_apply, if_pos hlast]
    rw [repeatFor_of_finish _ (hfinish _), repeatFor_of_finish _ (hfinish _), Reply.map]
  · -- what a round reads does not depend on the statements that are held
    have hround (items : List Statement) : nextStatement statement closing items unread =
        (passing (recovered statement) unread).map fun item => .again (item :: items) := by
      rw [nextStatement_apply, if_neg hlast, map_apply]
    cases hitem : passing (recovered statement) unread with
    | done item rest reports =>
      have hagain (items : List Statement) : nextStatement statement closing items unread =
          .done (.again (item :: items)) rest reports := by rw [hround, hitem, Reply.map]
      cases rounds with
      | nil => exact absurd (bind_of_done _ (hagain items)) hends
      | cons lexeme rounds =>
        obtain ⟨first, more, rfl⟩ :=
          List.exists_cons_of_length_pos (Nat.lt_of_lt_of_le (by simp) hmore)
        rw [repeatFor_of_again lexeme rounds (hagain items)] at hends
        rw [repeatFor_of_again _ _ (hagain _), repeatFor_of_again _ _ (hagain _), Reply.map_after]
        refine congrArg (Reply.after reports) ?_
        refine repeatFor_held (item :: items) held rest (Nat.le_of_succ_le_succ hmore)
          fun hendless => hends ?_
        rw [hendless, Reply.after]
    | failed report rest reports =>
      have hfails (items : List Statement) : nextStatement statement closing items unread =
          .failed report rest reports := by rw [hround, hitem, Reply.map]
      rw [repeatFor_of_failed _ (hfails _), repeatFor_of_failed _ (hfails _), Reply.map]
    | stopped halt =>
      have hstops (items : List Statement) : nextStatement statement closing items unread =
          .stopped halt := by rw [hround, hitem, Reply.map]
      rw [repeatFor_of_stopped _ (hstops _), repeatFor_of_stopped _ (hstops _), Reply.map]

end Held

/-- The statements of a program are read without a want of rounds. -/
theorem Parser.repeatFor_program (options : Options) (lexemes : List Lexeme) :
    repeatFor (nextStatement (statement options (outermost options)) []) lexemes [] lexemes ≠
      .stopped .endless := by
  intro hendless
  have haccount := program_accounts options lexemes
  have hprogram : Parser.program options lexemes = .stopped .endless := bind_of_stopped _ hendless
  rw [hprogram] at haccount
  obtain ⟨error, hhalt, -⟩ := haccount
  cases hhalt

/-- A statement in front of a program, or the complaint about it, is the first one of both. -/
theorem Parser.program_cons {options : Options} {unread rest : List Lexeme} {item : Statement}
    {reports : List Report}
    (hitem : recovered (statement options (outermost options)) unread = .done item rest reports)
    (hless : rest.length < unread.length) :
    program options unread = ((program options rest).map (item :: ·)).after reports := by
  obtain ⟨lexeme, rounds, rfl⟩ := List.exists_cons_of_length_pos (Nat.zero_lt_of_lt hless)
  have hround : nextStatement (statement options (outermost options)) [] [] (lexeme :: rounds) =
      .done (.again [item]) rest reports :=
    nextStatement_of_recovered [] (by simp [Lexeme.isMarkOf]) hitem hless
  have hheld := repeatFor_held [] [item] rest (Nat.le_of_lt_succ hless)
    (repeatFor_program options rest)
  rw [List.nil_append] at hheld
  rw [program_apply, repeatFor_of_again lexeme rounds hround, hheld, program_apply,
    Reply.map_after, Reply.map_map, Reply.map_map]
  simp only [List.reverse_append, List.reverse_singleton, List.singleton_append]

/-- Behind a program that is parsed without a report and ends with a semicolon another one is parsed
as it is parsed alone. -/
theorem program_append {options : Options} {first rest : List Lexeme} {statements : List Statement}
    (hdone : Parser.program options first = .done statements rest [])
    (hlast : first.getLast?.any (·.isMarkOf [";"]) = true) (second : List Lexeme) :
    Parser.program options (first ++ second) =
      (Parser.program options second).map (statements ++ ·) := by
  obtain ⟨fewer, left, hfewer, hleft, hprogram⟩ :=
    Parser.program_copy (show (Pairing.inFront second).Paired first _ from ⟨rfl, hlast⟩) hdone
  obtain rfl : left = second := by
    rcases hleft with ⟨-, hnone⟩ | ⟨-, hover⟩
    · cases hnone
    · exact hover
  have hheld := repeatFor_held [] statements.reverse left hfewer (repeatFor_program options left)
  rw [List.nil_append] at hheld
  rw [hprogram, hheld, program_apply, Reply.map_map, Reply.map_map]
  simp only [List.reverse_append, List.reverse_reverse]

namespace Input

variable {before rest : List Token} (hinside : ∀ token ∈ before, isInside token = true)
include hinside

/-- An input behind tokens that do not end it has the same end. -/
theorem ending_append (hrest : rest ≠ []) :
    (ofTokens (before ++ rest)).ending = (ofTokens rest).ending := by
  have hplace : lastPlace (before ++ rest) = lastPlace rest := by
    rw [lastPlace, lastPlace, List.getLast?_append_of_ne_nil before hrest]
  simp only [ofTokens, List.dropWhile_append_of_pos hinside, hplace]

/-- The tokens of an input behind others are as far from its end as they are alone. -/
theorem tokenAt_append (hrest : rest ≠ []) {left : Nat}
    (hleft : left ≤ (ofTokens rest).tokens.size) :
    (ofTokens (before ++ rest)).tokenAt left = (ofTokens rest).tokenAt left := by
  have htokens : (ofTokens (before ++ rest)).tokens = before.toArray ++ (ofTokens rest).tokens := by
    simp [ofTokens, List.takeWhile_append_of_pos hinside]
  have hposition : before.toArray.size + (ofTokens rest).tokens.size - left =
      before.toArray.size + ((ofTokens rest).tokens.size - left) := Nat.add_sub_assoc hleft _
  rw [tokenAt, tokenAt, ending_append hinside hrest, htokens, Array.size_append, hposition,
    Array.getElem?_append_right (Nat.le_add_right _ _), Nat.add_sub_cancel_left]

/-- The reports of a program behind other tokens are diagnosed at the places where they are
diagnosed alone. -/
theorem reportTo_behind {options : Options} {program : List Statement} {left : List Lexeme}
    {reports : List Report}
    (hprogram : Parser.program options (ofTokens rest).lexemes = .done program left reports)
    (collector : Diagnostic.Collector) :
    (ofTokens (before ++ rest)).reportTo reports collector =
      (ofTokens rest).reportTo reports collector := by
  refine congrArg (collector.reportAll .unexpectedToken) (List.map_congr_left fun report hmem => ?_)
  have hrest : rest ≠ [] := by
    rintro rfl
    obtain ⟨-, -, rfl⟩ := Reply.done.inj hprogram
    cases hmem
  rw [placeOf, placeOf, tokenAt_append hinside hrest (report_of_program hprogram hmem).1]

end Input

/-- Tokens that do not end the input, that are parsed without a diagnostic and of which the last one
is a semicolon are parsed in the same way in front of any tokens. These are parsed as they are
parsed alone: their statements follow, their diagnostics are the diagnostics, and they stop the
parsing if they do so alone. -/
theorem parseTokens_append {first : List Token} {options : Options} {alone : Option String}
    {statements : List Statement} (hinside : ∀ token ∈ first, token.kind ≠ .endOfInput)
    (hlast : first.getLast?.any (·.isMarkOf [";"]) = true)
    (hparsed : parseTokens first alone options = .ok (statements, []))
    (second : List Token) (source : Option String) :
    parseTokens (first ++ second) source options =
      (fun (rest, diagnostics) => (statements ++ rest, diagnostics)) <$>
        parseTokens second source options := by
  have hfirst : ∀ token ∈ first, Input.isInside token = true := fun token hmem => by
    simpa [Input.isInside] using hinside token hmem
  have hown := program_of_parseTokens hparsed
  have hsemicolon : (first.map Token.toLexeme).getLast?.any (·.isMarkOf [";"]) = true := by
    rw [List.getLast?_map, Option.any_map]
    exact hlast
  rw [Input.lexemes_of_inside hfirst] at hown
  have hprogram : Parser.program options (Input.ofTokens (first ++ second)).lexemes =
      (Parser.program options (Input.ofTokens second).lexemes).map (statements ++ ·) := by
    rw [Input.lexemes_ofTokens_append second hfirst]
    exact program_append hown hsemicolon _
  cases hreply : Parser.program options (Input.ofTokens second).lexemes with
  | done rest left reports =>
    rw [hreply, Reply.map] at hprogram
    rw [parseTokens_of_done source hprogram, parseTokens_of_done source hreply,
      Input.reportTo_behind hfirst hreply]
    rfl
  | failed report left reports => exact absurd hreply (program_recovers options _).ne_failed
  | stopped halt =>
    rw [hreply, Reply.map] at hprogram
    rw [parseTokens_of_stopped source hprogram, parseTokens_of_stopped source hreply]
    rfl

/-- Behind a declaration tokens that are no program are parsed as they are alone. -/
theorem parseTokens_append_malformed :
    let first := [⟨.keyword, "let"⟩, ⟨.identifier, "x"⟩, ⟨.operator, "="⟩, ⟨.number, "1"⟩,
      ⟨.symbol, ";"⟩].map fun lexeme => Token.mk lexeme (.start "main")
    let second := [Token.mk ⟨.symbol, ")"⟩ (.start "main")]
    parseTokens first none {} = .ok ([.declaration .variable "x" none (.number (.integer 1))], []) ∧
      parseTokens (first ++ second) none {} =
        (fun (rest, diagnostics) =>
          (.declaration .variable "x" none (.number (.integer 1)) :: rest, diagnostics)) <$>
            parseTokens second none {} := by
  intro first second
  have hreply : Parser.program {} (first.map Token.toLexeme) =
      .done [.declaration .variable "x" none (.number (.integer 1))] [] [] := rfl
  have hparsed : parseTokens first none {} =
      .ok ([.declaration .variable "x" none (.number (.integer 1))], []) :=
    (show parseTokens first none {} = _ from parseTokens_of_done none hreply).trans rfl
  exact ⟨hparsed, parseTokens_append (by decide) (by decide) hparsed second none⟩

end BraceLang
