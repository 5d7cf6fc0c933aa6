import BraceLang.Proofs.Machine.Following
import BraceLang.Proofs.Machine.Twins
import BraceLang.Proofs.Parsing.Completion
import BraceLang.Proofs.Source.Calls

/-!
# Programs that the machine reads

A program that is read with the machine is the one that the parsers make of the tokens up to the
first end token, and its reports are in the collector behind whatever this holds, unless the machine
is short of room. Two machines over tokens that correspond read the same program.
-/

namespace BraceLang

namespace Machine

variable {tokens : List Token} {options : Options} {limit : Option Nat}

section Parsers

/-- The state before anything is read is in front of all tokens, at a level for each that the
outline of a program may open. -/
theorem programOutline_follows (tokens : List Token) (collector : Diagnostic.Collector)
    (options : Options) (limit : Option Nat) :
    Follows tokens (.start tokens collector) (limit.isSome = true)
      (Parser.program options (Input.ofTokens tokens).lexemes)
      ((programOutline options).carryOut (.over tokens limit) 0 (.start tokens collector)) :=
  (programOutline options).carryOut_follows 0 (.start tokens collector) (.refl tokens) rfl rfl
    fun _ hlexeme => nomatch hlexeme

/-- A program is read as the parsers read it, and its reports are in the collector, unless there is
too little room. -/
theorem readProgram_eq (collector : Diagnostic.Collector)
    (hroom : readProgram tokens collector options limit ≠ .error .exhausted) :
    readProgram tokens collector options limit =
      (fun parsed => (parsed.statements,
        (Input.ofTokens tokens).reportTo parsed.reports collector)) <$>
          (Input.ofTokens tokens).parse options := by
  have hfollows := programOutline_follows tokens collector options limit
  have haccount := program_accounts options (Input.ofTokens tokens).lexemes
  unfold readProgram at hroom ⊢
  unfold Input.parse
  generalize (programOutline options).carryOut (.over tokens limit) 0 (.start tokens collector) =
    outcome at hfollows hroom ⊢
  cases hreply : Parser.program options (Input.ofTokens tokens).lexemes with
  | done program rest reports =>
    rw [hreply] at hfollows
    cases hfollows with
    | done hleft => rfl
    | exhausted => exact absurd rfl hroom
  | failed report rest reports => exact absurd hreply (program_recovers options _).ne_failed
  | stopped halt =>
    rw [hreply] at hfollows haccount
    obtain ⟨error, rfl, -⟩ := haccount
    cases hfollows with
    | stopped => rfl
    | exhausted => exact absurd rfl hroom

/-- A machine without a limit is never short of room. -/
theorem readProgram_none_ne_exhausted (collector : Diagnostic.Collector) :
    readProgram tokens collector options none ≠ .error .exhausted := by
  have hfollows := programOutline_follows tokens collector options none
  have haccount := program_accounts options (Input.ofTokens tokens).lexemes
  unfold readProgram
  generalize (programOutline options).carryOut (.over tokens none) 0 (.start tokens collector) =
    outcome at hfollows ⊢
  generalize Parser.program options (Input.ofTokens tokens).lexemes = reply at hfollows haccount
  cases hfollows with
  | done | failed => exact fun herror => nomatch herror
  | stopped =>
    obtain ⟨error, rfl, -⟩ := haccount
    exact fun herror => nomatch herror
  | endless =>
    obtain ⟨error, herror, -⟩ := haccount
    cases herror
  | exhausted hshort => cases hshort

end Parsers

/-- Two machines over tokens that correspond stop for the same reason, or read the same program and
come to collectors that correspond. -/
theorem readProgram_twins {left right : List Token}
    (correspondence : Correspondence (.over left limit) (.over right limit))
    (hunread : correspondence.Unread left right) {collector second : Diagnostic.Collector}
    (hreported : correspondence.Reported collector second) (options : Options) :
    (∃ halt, readProgram left collector options limit = .error halt ∧
        readProgram right second options limit = .error halt) ∨
      ∃ program behind after, readProgram left collector options limit = .ok (program, behind) ∧
        readProgram right second options limit = .ok (program, after) ∧
        correspondence.Reported behind after := by
  have htwins : (State.start left collector).Twins correspondence (.start right second) :=
    ⟨hunread, rfl, rfl, hreported⟩
  have houtcome := (programOutline options).carryOut_twins 0 htwins
  unfold readProgram
  generalize (programOutline options).carryOut (.over left limit) 0 (.start left collector) =
    first at houtcome ⊢
  generalize (programOutline options).carryOut (.over right limit) 0 (.start right second) =
    last at houtcome ⊢
  cases houtcome with
  | done hbehind => exact .inr ⟨_, _, _, rfl, rfl, hbehind.reported⟩
  | failed hfinding hbehind =>
    dsimp only
    rw [hfinding.complaint]
    exact .inr ⟨_, _, _, rfl, rfl, hbehind.reported⟩
  | stopped => exact .inl ⟨_, rfl, rfl⟩

end Machine

open Machine

variable {options : Options}

/-- Tokens are read with the machine as they are parsed, unless there is too little room. -/
theorem readTokens_eq_parseTokens_of_ne {tokens : List Token} {source : Option String}
    {limit : Option Nat} (hroom : readTokens tokens source options limit ≠ .error .exhausted) :
    readTokens tokens source options limit = parseTokens tokens source options := by
  have hprogram : readProgram tokens (.empty source) options limit ≠ .error .exhausted := by
    intro hshort
    simp only [readTokens, hshort] at hroom
    exact hroom rfl
  rw [readTokens, readProgram_eq _ hprogram, parseTokens_eq_map]
  cases (Input.ofTokens tokens).parse options <;> rfl

/-- Without a limit tokens are read as they are parsed. -/
theorem readTokens_eq_parseTokens (tokens : List Token) (source : Option String)
    (options : Options) : readTokens tokens source options = parseTokens tokens source options := by
  refine readTokens_eq_parseTokens_of_ne fun hshort => ?_
  rw [readTokens] at hshort
  cases hprogram : readProgram tokens (.empty source) options none with
  | ok program =>
    rw [hprogram] at hshort
    cases hshort
  | error halt =>
    rw [hprogram] at hshort
    cases hshort
    exact readProgram_none_ne_exhausted _ hprogram

/-- The lexer hands its tokens and its collector over to the machine. -/
theorem readSource_eq_readProgram (source : String) (keywords : List String) (file : String)
    (options : Options) (limit : Option Nat) :
    readSource source keywords file options limit =
      readProgram (Source.tokenize source keywords file).1
        ⟨some source, (Source.tokenize source keywords file).2⟩ options limit := by
  obtain ⟨htokens, -, hcollector, -⟩ :=
    Source.Lexer.call_start source keywords file (.empty none)
  have hattached : Diagnostic.Collector.attach (.empty none) (some source) =
      .empty (some source) := rfl
  have hreported : (Source.tokenization source keywords file).reportTo (.empty (some source)) =
      ⟨some source, (Source.tokenize source keywords file).2⟩ := by
    rw [Source.tokenize, Source.Tokenization.reportTo]
    cases (Source.tokenization source keywords file).fault <;> rfl
  rw [readSource, htokens, hcollector, hattached, hreported]
  rfl

end BraceLang
