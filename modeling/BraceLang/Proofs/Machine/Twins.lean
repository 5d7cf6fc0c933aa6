import BraceLang.Proofs.Machine.Tokens

/-!
# Two runs of the machine

Two machines that carry out one outline in states that correspond come to outcomes that correspond.
The tokens that are unread have the same lexemes one by one, so both machines find the same and
decide the same; what the tokens are besides, where they stand, and what the collectors hold has no
part in a decision. A relation between the tokens that holds all the way tells which tokens two
findings are about, and a relation between the collectors that a report on such tokens preserves
tells what has been reported.
-/

namespace BraceLang.Machine

open BraceLang.Parser

/-- How the runs of two machines correspond that have the same room. -/
structure Correspondence (one other : Setting) where
  /-- What the tokens that are unread have to do with each other. -/
  Unread : List Token → List Token → Prop
  /-- What the collectors have to do with each other. -/
  Reported : Diagnostic.Collector → Diagnostic.Collector → Prop
  limit : one.limit = other.limit
  lexemes {left right : List Token} : Unread left right →
    left.map Token.toLexeme = right.map Token.toLexeme
  tail {left right : List Token} : Unread left right →
    Input.isInside (one.current left) = true → Unread left.tail right.tail
  /-- A complaint is reported on tokens that are unread at the same time. -/
  report {left right : List Token} {collector second : Diagnostic.Collector}
    {complaint : Complaint} : Unread left right → Reported collector second →
    complaint.found = (one.current left).found →
    Reported
      (collector.report .unexpectedToken complaint.message (some (one.current left).location))
      (second.report .unexpectedToken complaint.message (some (other.current right).location))

/-- Two machines over the same tokens, with collectors that stay related whatever is reported to
both of them. What holds of the tokens that are unread at first may be kept in view, if it holds
behind every token that is passed. -/
def Correspondence.same (setting : Setting) (Left : List Token → Prop)
    (Reported : Diagnostic.Collector → Diagnostic.Collector → Prop)
    (tail : ∀ {unread : List Token}, Left unread →
      Input.isInside (setting.current unread) = true → Left unread.tail)
    (report : ∀ {collector second message place}, Reported collector second →
      Reported (collector.report .unexpectedToken message (some place))
        (second.report .unexpectedToken message (some place))) :
    Correspondence setting setting where
  Unread left right := left = right ∧ Left left
  Reported := Reported
  limit := rfl
  lexemes hunread := congrArg (List.map Token.toLexeme) hunread.1
  tail := by
    rintro left right ⟨rfl, hleft⟩ hinside
    exact ⟨rfl, tail hleft hinside⟩
  report := by
    rintro left right collector second complaint ⟨rfl, -⟩ hreported -
    exact report hreported

variable {one other : Setting} (correspondence : Correspondence one other)

/-- States that correspond. -/
structure State.Twins (left right : State) : Prop where
  unread : correspondence.Unread left.unread right.unread
  depth : left.depth = right.depth
  literals : left.literals = right.literals
  reported : correspondence.Reported left.collector right.collector

/-- Findings that correspond: the same complaint on tokens that are unread at the same time. -/
structure Finding.Twins (left right : Finding) : Prop where
  complaint : left.complaint = right.complaint
  places : ∃ before after, correspondence.Unread before after ∧
    left.place = (one.current before).location ∧ right.place = (other.current after).location

/-- Outcomes that correspond: the same value or the same failure, in states that correspond. -/
inductive Outcome.Twins {α : Type} : Outcome α → Outcome α → Prop
  | done {value : α} {left right : State} : left.Twins correspondence right →
    Outcome.Twins (.done value left) (.done value right)
  | failed {first second : Finding} {left right : State} : first.Twins correspondence second →
    left.Twins correspondence right →
    Outcome.Twins (.failed first left) (.failed second right)
  | stopped {halt : Halt} : Outcome.Twins (.stopped halt) (.stopped halt)

section Lexemes

variable {left right : List Token} (hlexemes : left.map Token.toLexeme = right.map Token.toLexeme)
include hlexemes

/-- Tokens that are next have the same lexeme where all that are unread have, end tokens that are
not in the lists included. -/
theorem toLexeme_current_of_eq (one other : Setting) :
    (one.current left).toLexeme = (other.current right).toLexeme := by
  cases left with
  | nil =>
    obtain rfl := List.map_eq_nil_iff.mp hlexemes.symm
    rfl
  | cons token rest =>
    obtain ⟨second, others, rfl, hsecond, -⟩ := List.map_eq_cons_iff.mp hlexemes.symm
    exact hsecond.symm

/-- So the same is found of them. -/
theorem found_current_of_eq (one other : Setting) :
    (one.current left).found = (other.current right).found := by
  rw [Token.found, Token.found, Input.isInside, Input.isInside,
    toLexeme_current_of_eq hlexemes one other]

end Lexemes

section Tokens

variable {correspondence} {left right : List Token} (hunread : correspondence.Unread left right)
include hunread

/-- As many tokens are unread. -/
theorem Correspondence.length_eq : left.length = right.length := by
  simpa only [List.length_map] using congrArg List.length (correspondence.lexemes hunread)

/-- The tokens that are next have the same lexeme. -/
theorem Correspondence.toLexeme_current :
    (one.current left).toLexeme = (other.current right).toLexeme :=
  toLexeme_current_of_eq (correspondence.lexemes hunread) one other

/-- The same is found of them. -/
theorem Correspondence.found_current :
    (one.current left).found = (other.current right).found :=
  found_current_of_eq (correspondence.lexemes hunread) one other

/-- The same is found of the tokens behind them. -/
theorem Correspondence.found_second :
    (one.current left.tail).found = (other.current right.tail).found := by
  refine found_current_of_eq ?_ one other
  rw [List.map_tail, List.map_tail, correspondence.lexemes hunread]

/-- Passing a token keeps the tokens in step. -/
theorem Correspondence.pass : correspondence.Unread (one.pass left) (other.pass right) := by
  have hsame : Input.isInside (one.current left) = Input.isInside (other.current right) := by
    rw [Input.isInside, Input.isInside, Correspondence.toLexeme_current hunread]
  rw [Setting.pass, Setting.pass, ← hsame]
  split
  · next hinside => exact correspondence.tail hunread hinside
  · exact hunread

/-- So does passing open groups. -/
theorem Correspondence.behindGroups (depth : Nat) :
    correspondence.Unread (behindGroups depth left) (behindGroups depth right) := by
  have hlexemes := correspondence.lexemes hunread
  induction left generalizing right depth with
  | nil =>
    obtain rfl := List.map_eq_nil_iff.mp hlexemes.symm
    exact hunread
  | cons token rest ih =>
    obtain ⟨second, others, rfl, hsecond, hothers⟩ := List.map_eq_cons_iff.mp hlexemes.symm
    have hsame : Input.isInside second = Input.isInside token :=
      congrArg (fun lexeme : Lexeme => lexeme.kind != .endOfInput) hsecond
    rw [Machine.behindGroups, Machine.behindGroups, hsame, hsecond]
    split
    · exact hunread
    · next hending =>
      have hinside : Input.isInside (one.current (token :: rest)) = true := by
        rwa [Bool.not_eq_true', Bool.not_eq_false] at hending
      have hrest := correspondence.tail hunread hinside
      have hdeeper := fun depth => ih hrest depth hothers.symm
      split
      · exact hdeeper (depth + 1)
      · split
        · split
          · exact hrest
          · exact hdeeper (depth - 1)
        · exact hdeeper depth

/-- And passing the group that begins with the next tokens. -/
theorem Correspondence.passGroup :
    correspondence.Unread (one.passGroup left) (other.passGroup right) := by
  rw [Setting.passGroup, Setting.passGroup, Correspondence.toLexeme_current hunread]
  split
  · exact Correspondence.behindGroups hunread 0
  · exact hunread

end Tokens

variable {correspondence} {left right : State}

section Reports

variable (htwins : left.Twins correspondence right) (complaint : Option Lexeme → Complaint)
  (hfound : ∀ found, (complaint found).found = found)
include htwins

/-- What complaints about the next tokens find corresponds. -/
theorem State.Twins.find :
    (left.find one complaint).Twins correspondence (right.find other complaint) :=
  ⟨congrArg complaint (Correspondence.found_current htwins.unread), _, _, htwins.unread, rfl, rfl⟩

include hfound

/-- States in which such complaints are reported correspond. -/
theorem State.Twins.report :
    (left.report (left.find one complaint)).Twins correspondence
      (right.report (right.find other complaint)) := by
  have hcomplaint := (htwins.find complaint).complaint
  refine ⟨htwins.unread, htwins.depth, htwins.literals, ?_⟩
  rw [State.report, State.report, ← hcomplaint]
  exact correspondence.report htwins.unread htwins.reported (hfound _)

/-- Failures at the next tokens correspond, behind steps that keep the tokens in step. -/
theorem State.Twins.reject {α : Type} {step second : List Token → List Token}
    (hstep : correspondence.Unread (step left.unread) (second right.unread)) :
    (left.reject one complaint step : Outcome α).Twins correspondence
      (right.reject other complaint second) := by
  obtain ⟨-, hdepth, hliterals, hreported⟩ := htwins.report complaint hfound
  exact .failed (htwins.find complaint) ⟨hstep, hdepth, hliterals, hreported⟩

end Reports

namespace Outcome.Twins

variable {α β σ : Type} {first second : Outcome α}

/-- What follows a value goes on from states that correspond. -/
theorem bind {next last : α → State → Outcome β} (houtcome : first.Twins correspondence second)
    (hnext : ∀ value {left right}, left.Twins correspondence right →
      (next value left).Twins correspondence (last value right)) :
    (first.bind next).Twins correspondence (second.bind last) := by
  cases houtcome with
  | done htwins => exact hnext _ htwins
  | failed hfinding htwins => exact .failed hfinding htwins
  | stopped => exact .stopped

/-- A change that keeps states in step keeps outcomes in step. -/
theorem mapState {back behind : State → State} (houtcome : first.Twins correspondence second)
    (hback : ∀ {left right}, left.Twins correspondence right →
      (back left).Twins correspondence (behind right)) :
    (first.mapState back).Twins correspondence (second.mapState behind) := by
  cases houtcome with
  | done htwins => exact .done (hback htwins)
  | failed hfinding htwins => exact .failed hfinding (hback htwins)
  | stopped => exact .stopped

/-- A level is counted up and down again in both runs, or there is none left in either. -/
theorem deeper {inner within : State → Outcome α}
    (hinner : ∀ {left right}, left.Twins correspondence right →
      (inner left).Twins correspondence (within right))
    (htwins : left.Twins correspondence right) :
    (left.deeper one inner).Twins correspondence (right.deeper other within) := by
  obtain ⟨hunread, hdepth, hliterals, hreported⟩ := htwins
  rw [State.deeper, State.deeper, ← hdepth]
  split
  · refine mapState (hinner ⟨hunread, rfl, hliterals, hreported⟩) fun hbehind => ?_
    obtain ⟨hunread, hdepth, hliterals, hreported⟩ := hbehind
    exact ⟨hunread, congrArg (· - 1) hdepth, hliterals, hreported⟩
  · exact State.Twins.reject ⟨hunread, hdepth, hliterals, hreported⟩ .nestingTooDeep
      (fun found => rfl) (Correspondence.passGroup hunread)

/-- Struct literals are allowed or forbidden in both runs, and the switch is set back in both. -/
theorem allowing {inner within : State → Outcome α} (allowed : Bool)
    (hinner : ∀ {left right}, left.Twins correspondence right →
      (inner left).Twins correspondence (within right))
    (htwins : left.Twins correspondence right) :
    (left.allowing allowed inner).Twins correspondence (right.allowing allowed within) := by
  obtain ⟨hunread, hdepth, hliterals, hreported⟩ := htwins
  refine mapState (hinner ⟨hunread, hdepth, rfl, hreported⟩) fun hbehind => ?_
  exact ⟨hbehind.unread, hbehind.depth, hliterals, hbehind.reported⟩

/-- Rounds go on in step. -/
theorem rounds {round going : σ → Nat → State → Outcome (Turn σ)} {chain : Bool}
    (hround : ∀ held opened {left right}, left.Twins correspondence right →
      (round held opened left).Twins correspondence (going held opened right))
    {fuel fewer : List Token} (hfuel : fuel.length = fewer.length) (held : σ) (opened : Nat)
    (htwins : left.Twins correspondence right) :
    (Outcome.rounds chain round fuel held opened left).Twins correspondence
      (Outcome.rounds chain going fewer held opened right) := by
  induction fuel generalizing fewer held opened left right with
  | nil =>
    obtain rfl := List.length_eq_zero_iff.mp hfuel.symm
    refine .bind (hround held opened htwins) ?_
    rintro (next | last) left right hbehind
    · exact .stopped
    · exact .done hbehind
  | cons token fuel ih =>
    obtain ⟨second, fewer, rfl⟩ := List.exists_cons_of_length_eq_add_one hfuel.symm
    refine .bind (hround held opened htwins) ?_
    rintro (next | last) left right hbehind
    · exact ih (Nat.succ.inj hfuel) next _ hbehind
    · exact .done hbehind

/-- The error in the place of a statement has the complaint that is the same in both runs. -/
theorem recovered {first second : Outcome Statement} (houtcome : first.Twins correspondence second) :
    first.recovered.Twins correspondence second.recovered := by
  cases houtcome with
  | done htwins => exact .done htwins
  | failed hfinding htwins =>
    rw [Outcome.recovered, Outcome.recovered, hfinding.complaint]
    exact .done htwins
  | stopped => exact .stopped

/-- Both runs have passed a token or none has. -/
theorem passing {before after : List Token} (hlength : before.length = after.length)
    (houtcome : first.Twins correspondence second) :
    (first.passing one before).Twins correspondence (second.passing other after) := by
  cases houtcome with
  | done htwins =>
    rw [Outcome.passing, Outcome.passing, hlength, Correspondence.length_eq htwins.unread]
    refine .done ?_
    split
    · exact htwins
    · exact ⟨Correspondence.pass htwins.unread, htwins.depth, htwins.literals, htwins.reported⟩
  | failed hfinding htwins => exact .failed hfinding htwins
  | stopped => exact .stopped

end Outcome.Twins

end BraceLang.Machine

namespace BraceLang

open BraceLang.Machine

/-- An outline is carried out alike in states that correspond. The induction is on the outline, and
each case is one that asks a token for its lexeme, or moves on by it, or takes note of its place. -/
theorem Outline.carryOut_twins {α : Type} {allowance : Allowance} {known : Option Lexeme}
    {parser : Parser α} (outline : Outline allowance known parser) {one other : Setting}
    {correspondence : Correspondence one other} (opened : Nat) {left right : State}
    (htwins : left.Twins correspondence right) :
    (outline.carryOut one opened left).Twins correspondence
      (outline.carryOut other opened right) := by
  have hunexpected (expected : Expected) (found : Option Lexeme) :
      (Complaint.unexpected found expected).found = found := rfl
  have hfound := Correspondence.found_current htwins.unread
  induction outline generalizing opened left right with
  | pure value => exact .done htwins
  | bind outline next ihOutline ihNext =>
    refine .bind (ihOutline opened htwins hfound) fun value left right hbehind => ?_
    exact ihNext value opened hbehind (Correspondence.found_current hbehind.unread)
  | cond condition yes no ihYes ihNo =>
    rw [carryOut, carryOut]
    split
    · exact ihYes _ opened htwins hfound
    · exact ihNo _ opened htwins hfound
  | anyway _ ih | boundary _ ih | plain _ ih => exact ih opened htwins hfound
  | look atEnd before ihNone ihSome =>
    rw [carryOut, carryOut, State.found, State.found, ← hfound]
    cases (one.current left.unread).found with
    | none => exact ihNone opened htwins hfound
    | some lexeme => exact ihSome lexeme opened htwins hfound
  | second =>
    have hsecond := Correspondence.found_second htwins.unread
    rw [carryOut, carryOut, State.foundSecond, State.foundSecond, hsecond]
    exact .done htwins
  | both mark test =>
    have hsecond := Correspondence.found_second htwins.unread
    rw [carryOut, carryOut, State.foundSecond, State.foundSecond, hsecond,
      Correspondence.toLexeme_current htwins.unread]
    exact .done htwins
  | advance =>
    exact .done ⟨Correspondence.pass htwins.unread, htwins.depth, htwins.literals, htwins.reported⟩
  | complain expected =>
    have hreport := htwins.report (.unexpected · expected) (hunexpected expected)
    have hcomplaint := (htwins.find (.unexpected · expected)).complaint
    rw [carryOut, carryOut, State.complain, State.complain, hcomplaint]
    exact .done hreport
  | reject expected =>
    exact htwins.reject (.unexpected · expected) (hunexpected expected) htwins.unread
  | rejectPassing expected =>
    exact htwins.reject (.unexpected · expected) (hunexpected expected)
      (Correspondence.pass htwins.unread)
  | numeral text =>
    rw [carryOut, carryOut]
    cases Numeral.read text with
    | ok value =>
      exact .done
        ⟨Correspondence.pass htwins.unread, htwins.depth, htwins.literals, htwins.reported⟩
    | error error => exact .stopped
  | repeating chain held round ih =>
    refine .rounds (fun held opened left right hbehind => ?_)
      (Correspondence.length_eq htwins.unread) held opened htwins
    exact ih held opened hbehind (Correspondence.found_current hbehind.unread)
  | nested outline ih =>
    refine .deeper (fun hbehind => ?_) htwins
    exact ih opened hbehind (Correspondence.found_current hbehind.unread)
  | tooDeep parser => exact .deeper (fun _ => .stopped) htwins
  | recovered _ ih => exact .recovered (ih opened htwins hfound)
  | passing _ ih =>
    exact .passing (Correspondence.length_eq htwins.unread) (ih opened htwins hfound)
  | allowing allowed _ ih =>
    refine .allowing allowed (fun hbehind => ?_) htwins
    exact ih opened hbehind (Correspondence.found_current hbehind.unread)
  | asking next _ ih =>
    rw [carryOut, carryOut, htwins.literals]
    exact ih _ opened htwins hfound
  | call _ ih =>
    rw [carryOut, carryOut, Setting.hasRoom, Setting.hasRoom, correspondence.limit]
    split
    · exact ih (opened + 1) htwins hfound
    · exact .stopped

end BraceLang
