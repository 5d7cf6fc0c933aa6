import BraceLang.Proofs.Machine.Tokens
import BraceLang.Proofs.Parsing.Stages

/-!
# The machine follows the parsers

A machine that carries out the outline of a parser comes to the reply of the parser: to the same
value and to the same place, and what the parser reports is in its collector. Its count of levels
and its switch stand where they stood. The induction is on the outline, and what it carries is that
the count agrees with the levels that the outline may open, and the switch with what it may begin.

Where calls are limited the machine may stop for lack of room instead.
-/

namespace BraceLang

/-- Reports are added behind earlier ones. -/
theorem Input.reportTo_reportTo (input : Input) (earlier later : List Report)
    (collector : Diagnostic.Collector) :
    input.reportTo later (input.reportTo earlier collector) =
      input.reportTo (earlier ++ later) collector := by
  simp only [reportTo, Diagnostic.Collector.reportAll, List.map_append, List.append_assoc]

/-- Where nothing is reported a collector stays as it is. -/
theorem Input.reportTo_nil (input : Input) (collector : Diagnostic.Collector) :
    input.reportTo [] collector = collector := by
  simp only [reportTo, Diagnostic.Collector.reportAll, List.map_nil, List.append_nil]

namespace Machine

open BraceLang.Parser

variable {tokens unread : List Token} {limit : Option Nat} {state : State} {α β σ : Type}

/-- The state behind a part that has been read: what is unread, and with the reports on the way. -/
def State.after (tokens : List Token) (state : State) (unread : List Token)
    (reports : List Report) : State :=
  { state with unread, collector := (Input.ofTokens tokens).reportTo reports state.collector }

/-- The finding of a report. -/
def Finding.ofReport (tokens : List Token) (report : Report) : Finding :=
  ⟨report.complaint, (Input.ofTokens tokens).placeOf report⟩

section Reports

/-- One part behind another. -/
theorem State.after_after (rest : List Token) (earlier later : List Report) :
    (state.after tokens unread earlier).after tokens rest later =
      state.after tokens rest (earlier ++ later) := by
  simp only [after, Input.reportTo_reportTo]

/-- A part without reports. -/
theorem State.after_nil (tokens : List Token) (state : State) (unread : List Token) :
    state.after tokens unread [] = { state with unread } := by
  rw [after, Input.reportTo_nil]

/-- What is found of the next token is what a parser reports there. -/
theorem State.find_eq (hleft : IsLeft tokens state.unread)
    (complaint : Option Lexeme → Complaint) :
    state.find (.over tokens limit) complaint = .ofReport tokens
      ⟨(lexemesOf state.unread).length, complaint (lexemesOf state.unread).head?⟩ := by
  rw [find, found, found_current, hleft.current_eq limit]
  rfl

end Reports

/-- An outcome follows a reply: it has the same value or the same failure, in the state behind what
the parser passes. Behind a repetition that does not come to an end the machine may be anywhere, and
it may be short of room. -/
inductive Follows (tokens : List Token) (state : State) (short : Prop) {α : Type} :
    Reply α → Outcome α → Prop
  | done {value : α} {unread : List Token} {reports : List Report} : IsLeft tokens unread →
    Follows tokens state short (.done value (lexemesOf unread) reports)
      (.done value (state.after tokens unread reports))
  | failed {report : Report} {unread : List Token} {reports : List Report} :
    IsLeft tokens unread →
    Follows tokens state short (.failed report (lexemesOf unread) reports)
      (.failed (.ofReport tokens report) (state.after tokens unread (reports ++ [report])))
  | stopped {halt : Halt} : Follows tokens state short (.stopped halt) (.stopped halt)
  | endless {outcome : Outcome α} : Follows tokens state short (.stopped .endless) outcome
  | exhausted {reply : Reply α} : short → Follows tokens state short reply (.stopped .exhausted)

namespace Follows

variable {short : Prop} {parser : Parser α} {outcome : Outcome α}

/-- A value without a report. -/
theorem silent {value : α} (hleft : IsLeft tokens unread) :
    Follows tokens state short (.done value (lexemesOf unread) [])
      (.done value { state with unread }) := by
  rw [← State.after_nil tokens]
  exact .done hleft

/-- Passing the next token with a value. -/
theorem passed {value : α} (setting : Setting) (hleft : IsLeft tokens state.unread) :
    Follows tokens state short (.done value (lexemesOf state.unread).tail [])
      (.done value (state.pass setting)) := by
  rw [← lexemesOf_pass setting]
  exact silent (hleft.pass setting)

/-- A failure at the next token, behind which a step is made. -/
theorem rejected (complaint : Option Lexeme → Complaint) (step : List Token → List Token)
    {rest : List Lexeme} (hleft : IsLeft tokens state.unread)
    (hstep : IsLeft tokens (step state.unread)) (hrest : lexemesOf (step state.unread) = rest) :
    Follows tokens state short
      (.failed ⟨(lexemesOf state.unread).length, complaint (lexemesOf state.unread).head?⟩ rest [] :
        Reply α)
      (state.reject (.over tokens limit) complaint step) := by
  subst hrest
  rw [State.reject, State.find_eq hleft]
  exact .failed hstep

/-- What follows a value goes on from the state behind it. -/
theorem bind {lexemes : List Lexeme} {next : α → Parser β} {going : α → State → Outcome β}
    (hparser : Follows tokens state short (parser lexemes) outcome)
    (hnext : ∀ value unread reports, IsLeft tokens unread →
      Follows tokens (state.after tokens unread reports) short (next value (lexemesOf unread))
        (going value (state.after tokens unread reports))) :
    Follows tokens state short ((parser >>= next) lexemes) (outcome.bind going) := by
  generalize hreply : parser lexemes = reply at hparser
  cases hparser with
  | @done value unread earlier hleft =>
    rw [bind_of_done next hreply, Outcome.bind]
    have hlater := hnext value unread earlier hleft
    generalize next value (lexemesOf unread) = reply at hlater
    generalize going value (state.after tokens unread earlier) = outcome at hlater
    cases hlater with
    | done hrest =>
      rw [State.after_after]
      exact .done hrest
    | failed hrest =>
      rw [State.after_after, ← List.append_assoc]
      exact .failed hrest
    | stopped => exact .stopped
    | endless => exact .endless
    | exhausted hshort => exact .exhausted hshort
  | failed hleft =>
    rw [bind_of_failed next hreply]
    exact .failed hleft
  | stopped =>
    rw [bind_of_stopped next hreply]
    exact .stopped
  | endless =>
    rw [bind_of_stopped next hreply]
    exact .endless
  | exhausted hshort => exact .exhausted hshort

/-- A part in which something is changed that is changed back behind it. -/
theorem within {reply : Reply α} {changed : State} {back : State → State}
    (hinner : Follows tokens changed short reply outcome)
    (hback : ∀ unread reports,
      back (changed.after tokens unread reports) = state.after tokens unread reports) :
    Follows tokens state short reply (outcome.mapState back) := by
  cases hinner with
  | done hleft =>
    rw [Outcome.mapState, hback]
    exact .done hleft
  | failed hleft =>
    rw [Outcome.mapState, hback]
    exact .failed hleft
  | stopped => exact .stopped
  | endless => exact .endless
  | exhausted hshort => exact .exhausted hshort

/-- A machine that may go round more often than there are lexemes follows a repetition. -/
theorem rounds {round : σ → Parser (Turn σ)} {going : σ → Nat → State → Outcome (Turn σ)}
    (chain : Bool)
    (hround : ∀ held opened unread reports, IsLeft tokens unread →
      Follows tokens (state.after tokens unread reports) short (round held (lexemesOf unread))
        (going held opened (state.after tokens unread reports)))
    (fewer : List Lexeme) {fuel : List Token} (hfuel : fewer.length ≤ fuel.length) (held : σ)
    (opened : Nat) (hleft : IsLeft tokens unread) (reports : List Report) :
    Follows tokens (state.after tokens unread reports) short
      (repeatFor round fewer held (lexemesOf unread))
      (Outcome.rounds chain going fuel held opened (state.after tokens unread reports)) := by
  induction fewer generalizing fuel held opened unread reports with
  | nil =>
    cases fuel with
    | nil =>
      refine .bind (hround held opened unread reports hleft) ?_
      rintro (next | last) rest later hrest
      · exact .endless
      · exact .silent hrest
    | cons token fuel =>
      refine .bind (hround held opened unread reports hleft) ?_
      rintro (next | last) rest later hrest
      · exact .endless
      · exact .silent hrest
  | cons lexeme fewer ih =>
    cases fuel with
    | nil => exact absurd hfuel (Nat.not_succ_le_zero _)
    | cons token fuel =>
      refine .bind (hround held opened unread reports hleft) ?_
      rintro (next | last) rest later hrest
      · rw [State.after_after]
        exact ih (Nat.le_of_succ_le_succ hfuel) next _ hrest _
      · exact .silent hrest

/-- A failed statement is recovered with the complaint that was reported last. -/
theorem recovered {parser : Parser Statement} {lexemes : List Lexeme}
    {outcome : Outcome Statement}
    (hparser : Follows tokens state short (parser lexemes) outcome) :
    Follows tokens state short (Parser.recovered parser lexemes) outcome.recovered := by
  unfold Parser.recovered
  generalize parser lexemes = reply at hparser
  cases hparser with
  | done hleft => exact .done hleft
  | failed hleft => exact .done hleft
  | stopped => exact .stopped
  | @endless outcome => exact .endless
  | exhausted hshort => exact .exhausted hshort

/-- Whether a parser passed anything shows in the tokens that are unread. -/
theorem passing (setting : Setting) (hunread : IsLeft tokens state.unread)
    (hparser : Follows tokens state short (parser (lexemesOf state.unread)) outcome) :
    Follows tokens state short (Parser.passing parser (lexemesOf state.unread))
      (outcome.passing setting state.unread) := by
  unfold Parser.passing
  generalize parser (lexemesOf state.unread) = reply at hparser
  cases hparser with
  | @done value rest reports hleft =>
    have hless : (lexemesOf rest).length < (lexemesOf state.unread).length ↔
        rest.length < state.unread.length := by
      have hbefore := hunread.length_eq
      have hbehind := hleft.length_eq
      omega
    have hstate : (state.after tokens rest reports).unread = rest := rfl
    simp only [Outcome.passing, hless, hstate]
    split
    · exact .done hleft
    · rw [← lexemesOf_pass setting]
      exact .done (hleft.pass setting)
  | failed hleft => exact .failed hleft
  | stopped => exact .stopped
  | endless => exact .endless
  | exhausted hshort => exact .exhausted hshort

end Follows

end Machine

open Machine in
/-- A machine that carries out an outline follows its parser, wherever it stands in front of the
first end token. -/
theorem Outline.carryOut_follows {α : Type} {allowance : Allowance} {known : Option Lexeme}
    {parser : Parser α} (outline : Outline allowance known parser) {tokens : List Token}
    {limit : Option Nat} (opened : Nat) (state : State) (hleft : IsLeft tokens state.unread)
    (hdepth : state.depth + allowance.levels = maxNesting)
    (hliterals : state.literals = allowance.literals)
    (hknown : ∀ lexeme ∈ known, (lexemesOf state.unread).head? = some lexeme) :
    Follows tokens state (limit.isSome = true) (parser (lexemesOf state.unread))
      (outline.carryOut (.over tokens limit) opened state) := by
  have hnone : ∀ {lexemes : List Lexeme}, ∀ lexeme ∈ (none : Option Lexeme),
      lexemes.head? = some lexeme := fun _ hlexeme => nomatch hlexeme
  induction outline generalizing opened state with
  | pure value => exact .silent hleft
  | bind outline next ihOutline ihNext =>
    exact .bind (ihOutline opened state hleft hdepth hliterals hknown)
      fun value unread reports hrest => ihNext value opened _ hrest hdepth hliterals hnone
  | cond condition yes no ihYes ihNo =>
    unfold carryOut
    split
    · exact ihYes _ opened state hleft hdepth hliterals hknown
    · exact ihNo _ opened state hleft hdepth hliterals hknown
  | anyway _ ih | boundary _ ih => exact ih opened state hleft hdepth hliterals hnone
  | plain _ ih => exact ih opened state hleft hdepth hliterals hknown
  | look atEnd before ihNone ihSome =>
    unfold carryOut
    rw [Parser.peek_bind, State.found, found_current]
    cases hhead : (lexemesOf state.unread).head? with
    | none => exact ihNone opened state hleft hdepth hliterals hnone
    | some lexeme =>
      refine ihSome lexeme opened state hleft hdepth hliterals fun other hother => ?_
      rw [hhead, Option.mem_some.mp hother]
  | @second _ lexeme _ =>
    have hsome : lexemesOf state.unread ≠ [] := by
      intro hnil
      have hhead := hknown lexeme rfl
      rw [hnil] at hhead
      cases hhead
    unfold carryOut
    rw [State.foundSecond, found_second hsome]
    exact .silent hleft
  | both mark test =>
    unfold carryOut
    rw [Parser.nextIsMark_bind, Parser.peekSecond_bind, isMarkOf_current]
    by_cases hnil : lexemesOf state.unread = []
    · simp only [hnil, List.head?_nil, Option.any_none, Bool.false_and]
      rw [← hnil]
      exact .silent hleft
    · rw [State.foundSecond, found_second hnil]
      exact .silent hleft
  | advance => exact .passed _ hleft
  | complain expected =>
    unfold carryOut State.complain
    rw [State.find_eq hleft]
    exact .done hleft
  | reject expected =>
    exact .rejected (.unexpected · expected) id hleft hleft rfl
  | rejectPassing expected =>
    exact .rejected (.unexpected · expected) _ hleft (hleft.pass _) (lexemesOf_pass _ _)
  | numeral text =>
    unfold carryOut Parser.numeral
    cases Numeral.read text with
    | ok value => exact .passed _ hleft
    | error error => exact .stopped
  | repeating chain held round ih =>
    have hrounds := Follows.rounds chain (fun held opened unread reports hrest =>
        ih held opened _ hrest hdepth hliterals hnone) (lexemesOf state.unread)
      (length_lexemesOf_le state.unread) held opened hleft []
    rwa [State.after_nil] at hrounds
  | @nested _ _ levels _ _ _ outline ih =>
    -- the outline may open a level exactly where the count leaves one
    dsimp only at hdepth
    have hroom : state.depth < maxNesting := by omega
    unfold carryOut State.deeper
    rw [if_pos hroom]
    have hdeeper : state.depth + 1 + levels = maxNesting := by omega
    have hinner := ih opened { state with depth := state.depth + 1 } hleft hdeeper hliterals hnone
    refine .within hinner fun unread reports => ?_
    simp only [State.after, Int.add_sub_cancel]
  | tooDeep parser =>
    dsimp only at hdepth
    have hfull : ¬state.depth < maxNesting := by omega
    unfold carryOut State.deeper
    rw [if_neg hfull]
    exact .rejected .nestingTooDeep _ hleft (hleft.passGroup _) (lexemesOf_passGroup _ _)
  | recovered _ ih => exact .recovered (ih opened state hleft hdepth hliterals hnone)
  | passing _ ih => exact .passing _ hleft (ih opened state hleft hdepth hliterals hnone)
  | allowing allowed _ ih =>
    have hinner := ih opened { state with literals := allowed } hleft hdepth rfl hnone
    exact .within hinner fun unread reports => rfl
  | asking next _ ih =>
    unfold carryOut
    rw [hliterals]
    exact ih _ opened state hleft hdepth hliterals hnone
  | call _ ih =>
    unfold carryOut
    split
    · exact ih (opened + 1) state hleft hdepth hliterals hnone
    · next hfull =>
      refine .exhausted ?_
      cases limit with
      | none => exact absurd rfl hfull
      | some most => rfl

end BraceLang
