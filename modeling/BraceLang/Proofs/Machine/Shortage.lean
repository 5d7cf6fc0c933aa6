import BraceLang.Proofs.Machine.Programs
import BraceLang.Proofs.Machine.Stack
import BraceLang.Proofs.Nesting.Chains

/-!
# Programs that a machine has no room for

Further branches open no level, so no limit of nesting is in their way, but each of them is a call
inside the one before it. So there are programs for which a machine is short of room, however much
it has: conditional statements of more bare branches than calls may be open at once. Nothing is
reported about such a program, and without a limit it is read.

The induction is on the branches that are unread. Wherever the machine stands in front of them, no
more calls are open than may be, and with one more for each branch there would be.
-/

namespace BraceLang

namespace Machine

variable {tokens : List Token} {levels : Nat} {lexemes : List Lexeme} {state : State}

/-- A state in front of some lexemes, with so many levels left, where struct literals may begin. -/
structure State.InFrontOf (tokens : List Token) (levels : Nat) (lexemes : List Lexeme)
    (state : State) : Prop where
  left : IsLeft tokens state.unread
  depth : state.depth + levels = maxNesting
  literals : state.literals = true
  unread : lexemesOf state.unread = lexemes

/-- What is found there is the first of the lexemes. -/
theorem State.InFrontOf.found (hstate : state.InFrontOf tokens levels lexemes) (setting : Setting) :
    state.found setting = lexemes.head? := by
  rw [State.found, found_current, hstate.unread]

/-- Behind the next lexeme the rest of them is unread. -/
theorem State.InFrontOf.pass (hstate : state.InFrontOf tokens levels lexemes) (setting : Setting) :
    (state.pass setting).InFrontOf tokens levels lexemes.tail where
  left := hstate.left.pass setting
  depth := hstate.depth
  literals := hstate.literals
  unread := by rw [State.pass, lexemesOf_pass, hstate.unread]

/-- A machine comes to the value of a parser, in front of what the parser leaves unread, or to the
end of its room. -/
theorem State.InFrontOf.exhausted_or_done {α : Type} {parser : Parser α} {value : α}
    {rest : List Lexeme} {reports : List Report} (hstate : state.InFrontOf tokens levels lexemes)
    (outline : Outline ⟨true, levels, true⟩ none parser) (limit : Option Nat) (opened : Nat)
    (hparser : parser lexemes = .done value rest reports) :
    outline.carryOut (.over tokens limit) opened state = .stopped .exhausted ∨
      ∃ behind, State.InFrontOf tokens levels rest behind ∧
        outline.carryOut (.over tokens limit) opened state = .done value behind := by
  have hfollows : Follows tokens state (limit.isSome = true) (parser (lexemesOf state.unread))
      (outline.carryOut (.over tokens limit) opened state) :=
    outline.carryOut_follows opened state hstate.left hstate.depth hstate.literals <| by
      intro lexeme hlexeme
      cases hlexeme
  rw [hstate.unread, hparser] at hfollows
  generalize hreply : Reply.done value rest reports = reply at hfollows
  generalize outline.carryOut (.over tokens limit) opened state = outcome at hfollows ⊢
  cases hfollows with
  | done hleft =>
    obtain ⟨rfl, rfl, rfl⟩ := Reply.done.inj hreply
    refine .inr ⟨state.after tokens _ reports, ?_, rfl⟩
    exact ⟨hleft, hstate.depth, hstate.literals, rfl⟩
  | failed | stopped | endless => cases hreply
  | exhausted => exact .inl rfl

end Machine

open BraceLang.Machine

section Branches

variable (options : Options) (worded : String → Bool) (levels count : Nat)

/-- A bare branch is read from what it is printed as. -/
theorem Branch.bare_reads :
    (Parser.branch (layerInside options (levels + 1))).Reads (Printing.branch worded .bare) .bare
      fun _ => True :=
  Branch.isRead .bare rfl (Nat.le_add_left 1 levels)

/-- There are more lexemes than bare branches. -/
theorem Branch.length_bare :
    count ≤ (Printing.branches worded (List.replicate count .bare)).length := by
  induction count with
  | zero => exact Nat.zero_le _
  | succ count ih =>
    rw [List.replicate_succ, Printing.branches, List.length_cons, List.length_cons,
      List.length_append]
    omega

/-- A round of a conditional statement reads the next of the bare branches. -/
theorem Branch.nextBranch_bare (held : List Branch × Option (List Statement)) :
    Parser.nextBranch (layerInside options (levels + 1)) held
        (Printing.branches worded (List.replicate (count + 1) .bare)) =
      .done (.again (.bare :: held.1, none))
        (Printing.branches worded (List.replicate count .bare)) [] := by
  rw [List.replicate_succ, Printing.branches]
  unfold Parser.nextBranch
  rw [Parser.nextIsWord_bind, if_pos (by simp), Parser.advance_bind, List.tail_cons,
    Parser.nextIsWord_bind, if_pos (by simp), Parser.advance_bind, List.tail_cons,
    (Branch.bare_reads options worded levels).run _ trivial]
  rfl

end Branches

section Shortage

variable {tokens : List Token} {most opened : Nat} {state : State} {options : Options}
  {levels count : Nat} {worded : String → Bool}

/-- A call finds that as many are open as may be, or it is one of those that are open. -/
theorem Outline.carryOut_call {α : Type} {allowance : Allowance} {parser : Parser α}
    (outline : Outline allowance none parser) :
    outline.call.carryOut (.over tokens (some most)) opened state = .stopped .exhausted ∨
      opened + 1 ≤ most ∧ outline.call.carryOut (.over tokens (some most)) opened state =
        outline.carryOut (.over tokens (some most)) (opened + 1) state := by
  rw [carryOut]
  split
  · next hroom => exact .inr ⟨of_decide_eq_true hroom, rfl⟩
  · exact .inl rfl

/-- Where a lexeme is next it is told what to carry out. -/
theorem Outline.carryOut_look {α : Type} {allowance : Allowance} {known : Option Lexeme}
    {next : Option Lexeme → Parser α} {setting : Setting} {lexeme : Lexeme}
    (hfound : state.found setting = some lexeme) (atEnd : Outline allowance none (next none))
    (before : ∀ lexeme, Outline allowance (some lexeme) (next (some lexeme))) :
    (Outline.look atEnd before : Outline allowance known _).carryOut setting opened state =
      (before lexeme).carryOut setting opened state := by
  rw [carryOut, hfound]

namespace InsideOutlines

/-- In front of more bare branches than calls may still be opened a chain comes to the end of its
room. -/
theorem nextBranch_exhausted (hopened : opened ≤ most) (hmost : most < opened + count)
    {fuel : List Token} (hfuel : count ≤ fuel.length)
    (hstate : state.InFrontOf tokens (levels + 1)
      (Printing.branches worded (List.replicate count .bare)))
    (held : List Branch × Option (List Statement)) :
    Outcome.rounds true (fun held => ((insideOutlines options (levels + 1)).nextBranch held :
        Outline ⟨true, levels + 1, true⟩ none _).carryOut (.over tokens (some most)))
      fuel held opened state = .stopped .exhausted := by
  induction count generalizing opened state held fuel with
  | zero => omega
  | succ count ih =>
    obtain ⟨token, fuel, rfl⟩ := List.exists_cons_of_length_pos (Nat.zero_lt_of_lt hfuel)
    -- the round is a call, since the words for a further branch are next
    have hfurther : ((insideOutlines options (levels + 1)).nextBranch held :
        Outline ⟨true, levels + 1, true⟩ none _).carryOut (.over tokens (some most)) opened state =
          ((insideOutlines options (levels + 1)).furtherBranch held.1 :
            Outline ⟨true, levels + 1, true⟩ none _).call.carryOut (.over tokens (some most))
              opened (state.pass (.over tokens (some most))) := by
      rw [carryOut_nextBranch, hstate.unread, List.replicate_succ, Printing.branches,
        if_pos (by simp), if_pos (by simp)]
    rw [Outcome.rounds]
    rcases Outline.carryOut_call _ with hfull | ⟨hless, -⟩
    · rw [hfurther, hfull, Outcome.bind]
    · have hnext := Branch.nextBranch_bare options worded levels count held
      rcases hstate.exhausted_or_done ((insideOutlines options (levels + 1)).nextBranch held)
        (some most) opened hnext with hshort | ⟨behind, hbehind, hdone⟩
      · rw [hshort, Outcome.bind]
      · rw [hdone, Outcome.bind]
        exact ih hless (by omega) (Nat.le_of_succ_le_succ hfuel) hbehind _

/-- Nor is there room for the branches of a conditional statement. -/
theorem conditional_exhausted (hopened : opened ≤ most) (hmost : most < opened + count)
    (hstate : state.InFrontOf tokens (levels + 1)
      (Printing.branch worded .bare ++ Printing.branches worded (List.replicate count .bare))) :
    ((insideOutlines options (levels + 1)).conditional :
      Outline ⟨true, levels + 1, true⟩ none _).carryOut (.over tokens (some most)) opened state =
        .stopped .exhausted := by
  let outlines := insideOutlines options (levels + 1)
  have hcarried : (outlines.conditional : Outline ⟨true, levels + 1, true⟩ none _).carryOut
      (.over tokens (some most)) opened state =
        ((outlines.branch : Outline ⟨true, levels + 1, true⟩ none _).carryOut
          (.over tokens (some most)) opened state).bind fun first behind =>
            (Outcome.rounds true (fun held => (outlines.nextBranch held :
              Outline ⟨true, levels + 1, true⟩ none _).carryOut (.over tokens (some most)))
              behind.unread ([], none) opened behind).bind fun others behind =>
                .done (.conditional first others.1.reverse others.2) behind := rfl
  rw [hcarried]
  rcases hstate.exhausted_or_done outlines.branch (some most) opened
    (Branch.bare_reads options worded levels _ trivial) with hshort | ⟨behind, hbehind, hdone⟩
  · rw [hshort, Outcome.bind]
  · have hfuel : count ≤ behind.unread.length := by
      have hcount := Branch.length_bare worded count
      have hlength := length_lexemesOf_le behind.unread
      rw [hbehind.unread] at hlength
      omega
    rw [hdone, Outcome.bind, nextBranch_exhausted hopened hmost hfuel hbehind, Outcome.bind]

/-- Behind the word of a conditional statement its branches are carried out, as a call. -/
theorem carryOut_behindWord {inside : Option Layer} (outlines : InsideOutlines inside levels)
    {word : String} (hword : word = "if") {otherwise : Parser Statement}
    (other : Outline ⟨true, levels, true⟩ none otherwise) (setting : Setting) :
    ((outlines.behindWord word : WordOutline levels (Parser.behindWord options inside word)).either
      other).carryOut setting opened state =
        (.bind .advance fun _ => outlines.conditional :
          Outline ⟨true, levels, true⟩ none _).call.carryOut setting opened state := by
  unfold InsideOutlines.behindWord
  split
  case h_3 => rfl
  case h_12 => exact absurd hword ‹word = "if" → False›
  all_goals exact absurd hword (by decide)

/-- Nor is there room for the statement, which is a call, as what stands behind its word is. -/
theorem statement_exhausted (hmost : most < opened + count)
    (hstate : state.InFrontOf tokens (levels + 1) (.keyword "if" :: (Printing.branch worded .bare ++
      Printing.branches worded (List.replicate count .bare)))) :
    ((insideOutlines options (levels + 1)).statement :
      Outline ⟨true, levels + 1, true⟩ none (Parser.statement options _)).carryOut
        (.over tokens (some most)) opened state = .stopped .exhausted := by
  let outlines := insideOutlines options (levels + 1)
  let behind : Outline ⟨true, levels + 1, true⟩ none _ :=
    .bind .advance fun _ => outlines.conditional
  let within : Outline ⟨true, levels + 1, true⟩ none (Parser.statement options _) :=
    .look outlines.expressionStatement fun lexeme => .anyway <|
      (outlines.statementAt lexeme).either outlines.expressionStatement
  have hwithin (more : Nat) : within.carryOut (.over tokens (some most)) more state =
      behind.call.carryOut (.over tokens (some most)) more state := by
    rw [← outlines.carryOut_behindWord rfl outlines.expressionStatement]
    exact Outline.carryOut_look (hstate.found _) _ _
  change within.call.carryOut _ opened state = _
  rcases within.carryOut_call with hfull | ⟨hless, hcall⟩
  · exact hfull
  rw [hcall, hwithin]
  rcases behind.carryOut_call with hfull | ⟨hmore, hcall⟩
  · exact hfull
  rw [hcall]
  exact conditional_exhausted hmore (by omega) (hstate.pass _)

/-- Nor is there room for a list in which the statement is the first. -/
theorem statements_exhausted (hmost : most < opened + count)
    (hstate : state.InFrontOf tokens (levels + 1) (.keyword "if" :: (Printing.branch worded .bare ++
      Printing.branches worded (List.replicate count .bare)))) :
    ((insideOutlines options (levels + 1)).statement.statements [] :
      Outline ⟨true, levels + 1, true⟩ none (Parser.statements (Parser.statement options _) [])
        ).carryOut (.over tokens (some most)) opened state = .stopped .exhausted := by
  let setting : Setting := .over tokens (some most)
  let statement : Outline ⟨true, levels + 1, true⟩ none (Parser.statement options _) :=
    (insideOutlines options (levels + 1)).statement
  let within : Outline ⟨true, levels + 1, true⟩ none _ :=
    .bind (.repeating false [] (statement.nextStatement [])) fun items =>
    .pure items.reverse
  have hround : (statement.nextStatement [] []).carryOut setting (opened + 1) state =
      .stopped .exhausted := by
    have hcarried : (statement.nextStatement [] []).carryOut setting (opened + 1) state =
        ((Outline.atEnd : Outline ⟨true, levels + 1, true⟩ none _).carryOut setting (opened + 1)
          state).bind fun answer state =>
            if answer then .done (.finish []) state
            else ((Outline.nextIsMark [] : Outline ⟨true, levels + 1, true⟩ none _).carryOut setting
              (opened + 1) state).bind fun answer state =>
                if answer then .done (.finish []) state
                else ((statement.carryOut setting (opened + 1) state).recovered.passing setting
                  state.unread).bind fun item state => .done (.again [item]) state := rfl
    rw [hcarried, Outline.carryOut_atEnd, Outcome.bind, Outline.carryOut_nextIsMark, Outcome.bind,
      hstate.unread, statement_exhausted (by omega) hstate]
    rfl
  have hrounds : Outcome.rounds false
      (fun held => (statement.nextStatement [] held).carryOut setting) state.unread [] (opened + 1)
        state = .stopped .exhausted := by
    cases state.unread <;> rw [Outcome.rounds, hround, Outcome.bind]
  change within.call.carryOut setting opened state = _
  rcases within.carryOut_call with hfull | ⟨-, hcall⟩
  · exact hfull
  rw [hcall]
  change (Outcome.rounds false _ state.unread [] (opened + 1) state).bind _ = _
  rw [hrounds, Outcome.bind]

end InsideOutlines

/-- A conditional statement of as many further branches as calls may be open at once, or of more, is
not read, though without a limit it is parsed and nothing is reported about it. -/
theorem readTokens_chainedTokens {most further : Nat} (hmost : most ≤ further)
    (source : Option String) (options : Options) :
    readTokens (Statement.chainedTokens further) source options (some most) = .error .exhausted ∧
      parseTokens (Statement.chainedTokens further) source options =
        .ok ([.chained further], []) := by
  refine ⟨?_, Statement.parseTokens_chainedTokens further source options⟩
  let tokens := Statement.chainedTokens further
  let state : State := .start tokens (.empty source)
  have hstate : state.InFrontOf tokens maxNesting (lexemesOf tokens) :=
    ⟨.refl tokens, rfl, rfl, rfl⟩
  rw [lexemesOf, Statement.lexemes_chainedTokens, Statement.print_chained] at hstate
  let within : Outline ⟨true, maxNesting, true⟩ none (Parser.program options) :=
    (insideOutlines options maxNesting).statement.statements []
  have hprogram : (programOutline options).carryOut (.over tokens (some most)) 0 state =
      .stopped .exhausted := by
    change within.call.carryOut _ 0 state = _
    rcases within.carryOut_call with hfull | ⟨-, hcall⟩
    · exact hfull
    rw [hcall]
    exact InsideOutlines.statements_exhausted (by omega) hstate
  rw [readTokens, readProgram, hprogram]
  rfl

end Shortage

end BraceLang
