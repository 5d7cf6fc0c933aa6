import BraceLang.Proofs.Outline.Counting
import BraceLang.Proofs.Parsing.Rounds

/-!
# Where boundaries are seen

A parser never goes back, so that at a boundary no more lexemes are unread than there were before.
A parser without lists of statements among its parts sees no boundary at all.
-/

namespace BraceLang

open BraceLang.Parser

variable {α σ : Type}

/-- What is seen in a course that goes on behind a value is seen before the value or behind it. -/
theorem Course.mem_events_bind {β : Type} {course : Course α}
    {next : α → Int → List Lexeme → Course β} {event : Event}
    (hevent : event ∈ (course.bind next).events) :
    event ∈ course.events ∨ ∃ value rest reports, course.reply = .done value rest reports ∧
      event ∈ (next value course.depth rest).events := by
  obtain ⟨reply, depth, events⟩ := course
  cases reply with
  | done value rest reports =>
    rcases List.mem_append.mp hevent with hearlier | hlater
    · exact .inl hearlier
    · exact .inr ⟨value, rest, reports, rfl, hlater⟩
  | failed | stopped => exact .inl hevent

/-- A boundary is seen one level further in if it is seen at all. -/
theorem Course.boundary_of_deeper {inner : Int → List Lexeme → Course α} {depth place : Int}
    {unread : List Lexeme} {left : Nat}
    (hevent : Event.boundary place left ∈ (Course.deeper inner depth unread).events) :
    Event.boundary place left ∈ (inner (depth + 1) unread).events := by
  unfold Course.deeper at hevent
  split at hevent
  · simpa using hevent
  · cases hevent

section Rounds

variable {round : σ → Parser (Turn σ)} {course : σ → Int → List Lexeme → Course (Turn σ)}
  {depth : Int}

/-- What is seen in a repetition is seen in its first round, or in those behind it. -/
theorem Course.seen_cases {fuel : List Lexeme} {state : σ} {unread : List Lexeme}
    {event : Event} (hkeeps : (course state depth unread).Keeps (round state unread) depth)
    (hevent : event ∈ (Course.rounds course fuel state depth unread).events) :
    event ∈ (course state depth unread).events ∨
      ∃ lexeme fewer next rest reports, fuel = lexeme :: fewer ∧
        round state unread = .done (.again next) rest reports ∧
        event ∈ (Course.rounds course fewer next depth rest).events := by
  cases fuel with
  | nil =>
    rcases Course.mem_events_bind hevent with hfirst | ⟨turn, rest, reports, -, hlater⟩
    · exact .inl hfirst
    · cases turn <;> cases hlater
  | cons lexeme fewer =>
    rcases Course.mem_events_bind hevent with hfirst | ⟨turn, rest, reports, hreply, hlater⟩
    · exact .inl hfirst
    · rw [hkeeps.reply_eq] at hreply
      rw [hkeeps.depth_eq] at hlater
      cases turn with
      | again next => exact .inr ⟨lexeme, fewer, next, rest, reports, rfl, hreply, hlater⟩
      | finish last => cases hlater

/-- What holds wherever something is seen in a round, and then of everything unread before, holds
where it is seen in a repetition. -/
theorem Course.seen_of_rounds {event : Event} {motive : List Lexeme → Prop}
    (hkeeps : ∀ state unread, (course state depth unread).Keeps (round state unread) depth)
    (hruns : ∀ state, (round state).Runs)
    (hback : ∀ {rest unread}, rest <:+ unread → motive rest → motive unread)
    (hround : ∀ {state unread}, event ∈ (course state depth unread).events → motive unread)
    {fuel : List Lexeme} {state : σ} {unread : List Lexeme}
    (hevent : event ∈ (Course.rounds course fuel state depth unread).events) : motive unread := by
  induction fuel generalizing state unread with
  | nil =>
    rcases Course.seen_cases (hkeeps state unread) hevent with hfirst | ⟨_, _, _, _, _, hcons, -⟩
    · exact hround hfirst
    · cases hcons
  | cons lexeme fuel ih =>
    rcases Course.seen_cases (hkeeps state unread) hevent with hfirst |
      ⟨_, _, next, rest, reports, hcons, hagain, hlater⟩
    · exact hround hfirst
    · obtain ⟨rfl, rfl⟩ := List.cons.inj hcons
      exact hback ((hruns state).suffix hagain) (ih hlater)

/-- A repetition that comes to a value without a report, and in which something is seen: it is seen
in the last round, in one behind which the repetition goes on, or in the rounds behind that one. -/
theorem Course.seen_induction {event : Event} {last : σ} {rest : List Lexeme}
    {motive : List Lexeme → σ → List Lexeme → Prop}
    (finish : ∀ {fuel state unread}, event ∈ (course state depth unread).events →
      round state unread = .done (.finish last) rest [] → motive fuel state unread)
    (again : ∀ {lexeme fuel state held unread middle},
      event ∈ (course state depth unread).events →
      round state unread = .done (.again held) middle [] →
      repeatFor round fuel held middle = .done last rest [] →
      motive (lexeme :: fuel) state unread)
    (later : ∀ {lexeme fuel state held unread middle},
      event ∈ (Course.rounds course fuel held depth middle).events →
      round state unread = .done (.again held) middle [] → motive fuel held middle →
      motive (lexeme :: fuel) state unread)
    (hkeeps : ∀ state unread, (course state depth unread).Keeps (round state unread) depth)
    {fuel : List Lexeme} {state : σ} {unread : List Lexeme}
    (hdone : repeatFor round fuel state unread = .done last rest [])
    (hevent : event ∈ (Course.rounds course fuel state depth unread).events) :
    motive fuel state unread := by
  induction fuel generalizing state unread with
  | nil =>
    rcases repeatFor_cases hdone with hfinish | ⟨_, _, _, _, _, _, hcons, -⟩
    · rcases Course.seen_cases (hkeeps state unread) hevent with hfirst |
        ⟨_, _, _, _, _, hcons, -⟩
      · exact finish hfirst hfinish
      · cases hcons
    · cases hcons
  | cons lexeme fuel ih =>
    rcases repeatFor_cases hdone with hfinish | ⟨_, _, held, middle, earlier, others, hcons,
      hagain, hrest, hreports⟩
    · rcases Course.seen_cases (hkeeps state unread) hevent with hfirst |
        ⟨_, _, _, _, _, -, hother, -⟩
      · exact finish hfirst hfinish
      · rw [hfinish] at hother
        cases hother
    · obtain ⟨rfl, rfl⟩ := List.cons.inj hcons
      obtain ⟨rfl, rfl⟩ := List.append_eq_nil_iff.mp hreports.symm
      rcases Course.seen_cases (hkeeps state unread) hevent with hfirst |
        ⟨_, _, _, _, _, hcons, hother, hlater⟩
      · exact again hfirst hagain hrest
      · obtain ⟨rfl, rfl⟩ := List.cons.inj hcons
        rw [hagain] at hother
        obtain ⟨hturn, rfl, -⟩ := Reply.done.inj hother
        obtain rfl := Turn.again.inj hturn
        exact later hlater hagain (ih hrest hlater)

end Rounds

/-- A boundary is seen only by an outline with lists of statements, and where no more is unread than
at first. -/
theorem Outline.lists_of_boundary {allowance : Allowance} {known : Option Lexeme}
    {parser : Parser α} (outline : Outline allowance known parser) {depth place : Int}
    (hpositive : 0 ≤ depth) (hdepth : depth + allowance.levels = maxNesting) {unread : List Lexeme}
    {left : Nat} (hevent : Event.boundary place left ∈ (outline.run depth unread).events) :
    allowance.lists = true ∧ left ≤ unread.length := by
  induction outline generalizing depth unread with
  | bind outline next ihOutline ihNext =>
    obtain ⟨hreply, hback, -⟩ := outline.run_keeps hpositive hdepth unread
    rcases Course.mem_events_bind hevent with hfirst | ⟨value, rest, reports, hdone, hlater⟩
    · exact ihOutline hpositive hdepth hfirst
    · rw [hback] at hlater
      obtain ⟨hlists, hleft⟩ := ihNext value hpositive hdepth hlater
      exact ⟨hlists, hleft.trans (outline.runs.suffix (hreply.symm.trans hdone)).length_le⟩
  | cond condition yes no ihYes ihNo =>
    unfold run at hevent
    split at hevent
    · exact ihYes _ hpositive hdepth hevent
    · exact ihNo _ hpositive hdepth hevent
  | anyway _ ih | allowing _ _ ih | call _ ih => exact ih hpositive hdepth hevent
  | asking next _ ih => exact ih _ hpositive hdepth hevent
  | look atEnd before ihNone ihSome =>
    unfold run at hevent
    cases hhead : unread.head? with
    | none =>
      rw [hhead] at hevent
      exact ihNone hpositive hdepth hevent
    | some lexeme =>
      rw [hhead] at hevent
      exact ihSome lexeme hpositive hdepth hevent
  | second | both | pure | advance | complain | reject | rejectPassing | numeral => cases hevent
  | @repeating _ allowance _ _ state round ih =>
    have hkeeps state := (round state).run_keeps hpositive hdepth
    exact Course.seen_of_rounds
      (motive := fun unread => allowance.lists = true ∧ left ≤ unread.length) hkeeps
      (fun state => (round state).runs)
      (fun hsuffix hseen => ⟨hseen.1, hseen.2.trans hsuffix.length_le⟩)
      (ih _ hpositive hdepth) hevent
  | nested outline ih =>
    simp only at hdepth ih
    exact ih (by omega) (by omega) (Course.boundary_of_deeper hevent)
  | tooDeep parser => cases Course.boundary_of_deeper hevent
  | recovered _ ih | passing _ ih => exact ih hpositive hdepth hevent
  | boundary outline ih =>
    rcases List.mem_cons.mp hevent with hhere | hlater
    · obtain ⟨-, rfl⟩ := Event.boundary.inj hhere
      exact ⟨rfl, Nat.le_refl _⟩
    · exact ih hpositive hdepth hlater
  | plain outline ih =>
    have hlists := (ih hpositive hdepth hevent).1
    cases hlists

/-- Where a boundary is seen in the rounds of a repetition, no more is unread than at first. -/
theorem Outline.left_le_of_rounds {allowance : Allowance} {round : σ → Parser (Turn σ)}
    (outline : ∀ state, Outline allowance none (round state)) {depth place : Int}
    (hpositive : 0 ≤ depth) (hdepth : depth + allowance.levels = maxNesting)
    {fuel unread : List Lexeme} {state : σ} {left : Nat}
    (hevent : Event.boundary place left ∈
      (Course.rounds (fun state => (outline state).run) fuel state depth unread).events) :
    left ≤ unread.length :=
  Course.seen_of_rounds (motive := fun unread => left ≤ unread.length)
    (fun state => (outline state).run_keeps hpositive hdepth) (fun state => (outline state).runs)
    (fun hsuffix hleft => hleft.trans hsuffix.length_le)
    (fun hseen => ((outline _).lists_of_boundary hpositive hdepth hseen).2) hevent

end BraceLang
