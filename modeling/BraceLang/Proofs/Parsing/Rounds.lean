import BraceLang.Proofs.Parsing.Steps

/-!
# Rounds of a repetition

A repetition that comes to a value is a row of rounds, of which the last one finishes. How many
rounds it may take is not told here, so a row of rounds that is known from one repetition is found
again where another one comes to the same lexemes.
-/

namespace BraceLang

open BraceLang.Parser

variable {σ : Type}

section Allowance

variable {round : σ → Parser (Turn σ)} {state next last : σ} {unread middle rest : List Lexeme}
  {reports : List Report}

/-- The last round of a repetition. -/
theorem Parser.repeatFor_of_finish (rounds : List Lexeme)
    (hround : round state unread = .done (.finish last) rest reports) :
    repeatFor round rounds state unread = .done last rest reports := by
  cases rounds <;> exact (bind_of_done _ hround).trans (congrArg _ (List.append_nil reports))

/-- A round behind which the repetition goes on. -/
theorem Parser.repeatFor_of_again (lexeme : Lexeme) (rounds : List Lexeme)
    (hround : round state unread = .done (.again next) middle reports) :
    repeatFor round (lexeme :: rounds) state unread =
      (repeatFor round rounds next middle).after reports :=
  bind_of_done _ hround

/-- A round that fails. -/
theorem Parser.repeatFor_of_failed {report : Report} (rounds : List Lexeme)
    (hround : round state unread = .failed report rest reports) :
    repeatFor round rounds state unread = .failed report rest reports := by
  cases rounds <;> exact bind_of_failed _ hround

/-- A round that is stopped. -/
theorem Parser.repeatFor_of_stopped {halt : Halt} (rounds : List Lexeme)
    (hround : round state unread = .stopped halt) :
    repeatFor round rounds state unread = .stopped halt := by
  cases rounds <;> exact bind_of_stopped _ hround

/-- The first round of a repetition that comes to a value. -/
theorem Parser.repeatFor_cases {rounds : List Lexeme}
    (hdone : repeatFor round rounds state unread = .done last rest reports) :
    round state unread = .done (.finish last) rest reports ∨
      ∃ lexeme fewer next middle earlier later, rounds = lexeme :: fewer ∧
        round state unread = .done (.again next) middle earlier ∧
        repeatFor round fewer next middle = .done last rest later ∧ reports = earlier ++ later := by
  cases rounds with
  | nil =>
    obtain ⟨turn, middle, earlier, later, hround, hlast, rfl⟩ := exists_of_bind_eq_done hdone
    cases turn with
    | again next => cases hlast
    | finish value =>
      obtain ⟨rfl, rfl, rfl⟩ := Reply.done.inj hlast
      exact .inl (by rwa [List.append_nil])
  | cons lexeme fewer =>
    obtain ⟨turn, middle, earlier, later, hround, hlast, rfl⟩ := exists_of_bind_eq_done hdone
    cases turn with
    | again next =>
      exact .inr ⟨lexeme, fewer, next, middle, earlier, later, rfl, hround, hlast, rfl⟩
    | finish value =>
      obtain ⟨rfl, rfl, rfl⟩ := Reply.done.inj hlast
      exact .inl (by rwa [List.append_nil])

/-- What holds where the last round ends a repetition, and of every round behind which it goes on,
holds of a repetition that comes to a value. -/
theorem Parser.repeatFor_induction
    {motive : List Lexeme → σ → List Lexeme → List Report → Prop}
    (finish : ∀ {rounds state unread reports},
      round state unread = .done (.finish last) rest reports → motive rounds state unread reports)
    (again : ∀ {lexeme rounds state next unread middle earlier later},
      round state unread = .done (.again next) middle earlier →
      repeatFor round rounds next middle = .done last rest later → motive rounds next middle later →
      motive (lexeme :: rounds) state unread (earlier ++ later))
    {rounds : List Lexeme} (hdone : repeatFor round rounds state unread = .done last rest reports) :
    motive rounds state unread reports := by
  induction rounds generalizing state unread reports with
  | nil =>
    rcases repeatFor_cases hdone with hfinish | ⟨_, _, _, _, _, _, hcons, -⟩
    · exact finish hfinish
    · cases hcons
  | cons lexeme rounds ih =>
    rcases repeatFor_cases hdone with hfinish | ⟨_, _, next, middle, earlier, later, hcons, hagain,
      hlater, rfl⟩
    · exact finish hfinish
    · obtain ⟨rfl, rfl⟩ := List.cons.inj hcons
      exact again hagain hlater (ih hlater)

/-- A repetition that comes to a value does so however many more rounds it may take. -/
theorem Parser.repeatFor_of_length_le {rounds more : List Lexeme}
    (hmore : rounds.length ≤ more.length)
    (hdone : repeatFor round rounds state unread = .done last rest reports) :
    repeatFor round more state unread = .done last rest reports := by
  refine repeatFor_induction (motive := fun rounds state unread reports => ∀ more : List Lexeme,
    rounds.length ≤ more.length → repeatFor round more state unread = .done last rest reports)
    ?_ ?_ hdone more hmore
  · intro rounds state unread reports hfinish more _
    exact repeatFor_of_finish more hfinish
  · intro lexeme rounds state next unread middle earlier later hagain _ ih more hmore
    obtain ⟨first, more, rfl⟩ := List.exists_cons_of_length_pos (Nat.lt_of_lt_of_le (by simp) hmore)
    rw [repeatFor_of_again first more hagain, ih more (Nat.le_of_succ_le_succ hmore)]
    rfl

end Allowance

/-- Rounds one after the other: from what is held and unread before the first to what is held and
unread behind the last, with all their reports. -/
inductive Rounds (round : σ → Parser (Turn σ)) :
    σ → List Lexeme → σ → List Lexeme → List Report → Prop
  | finish {state last : σ} {unread rest : List Lexeme} {reports : List Report} :
    round state unread = .done (.finish last) rest reports →
    Rounds round state unread last rest reports
  | again {state next last : σ} {unread middle rest : List Lexeme} {earlier later : List Report} :
    round state unread = .done (.again next) middle earlier →
    Rounds round next middle last rest later →
    Rounds round state unread last rest (earlier ++ later)

namespace Rounds

variable {round : σ → Parser (Turn σ)} {state last other : σ} {unread rest left : List Lexeme}
  {reports others : List Report}

/-- However many rounds it may take, a repetition that comes to a value goes through some. -/
theorem of_repeatFor {rounds : List Lexeme}
    (hdone : repeatFor round rounds state unread = .done last rest reports) :
    Rounds round state unread last rest reports :=
  repeatFor_induction (motive := fun _ state unread reports =>
    Rounds round state unread last rest reports) .finish (fun hagain _ ih => .again hagain ih) hdone

/-- A repetition that comes to a value goes through such rounds. -/
theorem of_repeating (hdone : repeating round state unread = .done last rest reports) :
    Rounds round state unread last rest reports :=
  of_repeatFor hdone

/-- What holds of what is unread before every round holds behind the last one. -/
theorem invariant {holds : List Lexeme → Prop}
    (hround : ∀ {state unread turn rest reports}, holds unread →
      round state unread = .done turn rest reports → holds rest)
    (hrounds : Rounds round state unread last rest reports) (hunread : holds unread) :
    holds rest := by
  induction hrounds with
  | finish hlast => exact hround hunread hlast
  | again hagain _ ih => exact ih (hround hunread hagain)

/-- What the rounds come to is determined by what is held and unread before them. -/
theorem unique (hfirst : Rounds round state unread last rest reports)
    (hsecond : Rounds round state unread other left others) :
    last = other ∧ rest = left ∧ reports = others := by
  induction hfirst generalizing others with
  | finish hround =>
    cases hsecond with
    | finish hother =>
      rw [hround] at hother
      cases hother
      exact ⟨rfl, rfl, rfl⟩
    | again hother _ =>
      rw [hround] at hother
      cases hother
  | again hround _ ih =>
    cases hsecond with
    | finish hother =>
      rw [hround] at hother
      cases hother
    | again hother hrest =>
      rw [hround] at hother
      cases hother
      obtain ⟨rfl, rfl, rfl⟩ := ih hrest
      exact ⟨rfl, rfl, rfl⟩

end Rounds

section Passing

variable {round : σ → Parser (Turn σ)} {state next last : σ} {unread rest : List Lexeme}
  {reports : List Report}

/-- Rounds that pass a lexeme whenever the repetition goes on behind them. -/
def Parser.PassRounds (round : σ → Parser (Turn σ)) : Prop :=
  ∀ ⦃state next : σ⦄ ⦃unread rest : List Lexeme⦄ ⦃reports : List Report⦄,
    round state unread = .done (.again next) rest reports → rest.length < unread.length

/-- Such rounds are never more than there are lexemes, so it makes no difference how many more there
may be. -/
theorem Parser.repeatFor_congr (hround : PassRounds round) {rounds more : List Lexeme}
    (hrounds : unread.length ≤ rounds.length) (hmore : unread.length ≤ more.length) :
    repeatFor round rounds state unread = repeatFor round more state unread := by
  induction rounds generalizing more state unread with
  | nil =>
    cases hreply : round state unread with
    | done turn rest reports =>
      cases turn with
      | again next => exact absurd (Nat.lt_of_lt_of_le (hround hreply) hrounds) (Nat.not_lt_zero _)
      | finish last => rw [repeatFor_of_finish _ hreply, repeatFor_of_finish _ hreply]
    | failed => rw [repeatFor_of_failed _ hreply, repeatFor_of_failed _ hreply]
    | stopped => rw [repeatFor_of_stopped _ hreply, repeatFor_of_stopped _ hreply]
  | cons lexeme rounds ih =>
    cases hreply : round state unread with
    | done turn rest reports =>
      cases turn with
      | again next =>
        have hless := hround hreply
        obtain ⟨first, more, rfl⟩ := List.exists_cons_of_length_pos (show 0 < more.length by omega)
        rw [List.length_cons] at hrounds hmore
        rw [repeatFor_of_again _ _ hreply, repeatFor_of_again _ _ hreply,
          @ih next rest more (by omega) (by omega)]
      | finish last => rw [repeatFor_of_finish _ hreply, repeatFor_of_finish _ hreply]
    | failed => rw [repeatFor_of_failed _ hreply, repeatFor_of_failed _ hreply]
    | stopped => rw [repeatFor_of_stopped _ hreply, repeatFor_of_stopped _ hreply]

/-- Behind a round the repetition goes on with what is unread there. -/
theorem Parser.repeating_of_again (hround : PassRounds round)
    (hagain : round state unread = .done (.again next) rest reports) :
    repeating round state unread = (repeating round next rest).after reports := by
  have hless := hround hagain
  obtain ⟨first, fewer, rfl⟩ := List.exists_cons_of_length_pos (show 0 < unread.length by omega)
  have hrounds : rest.length ≤ fewer.length := Nat.le_of_lt_succ hless
  change repeatFor round (first :: fewer) state (first :: fewer) = _
  rw [repeatFor_of_again _ _ hagain, repeatFor_congr hround hrounds (Nat.le_refl _)]
  rfl

/-- Two repetitions one behind the other are one, if each of its rounds is one of the first
repetition as long as this goes on, and one of the second where the first has come to its end. The
first has come to its end behind every round of the second. -/
theorem Parser.repeating_bind_repeating {first second whole : σ → Parser (Turn σ)}
    (Ended : List Lexeme → Prop) (hfirst : PassRounds first) (hsecond : PassRounds second)
    (hended : ∀ {unread}, Ended unread → ∀ state,
      first state unread = .done (.finish state) unread [] ∧
        whole state unread = second state unread)
    (hgoes : ∀ {unread}, ¬Ended unread → ∀ state, whole state unread = first state unread ∧
      ∀ last rest reports, first state unread ≠ .done (.finish last) rest reports)
    (hbehind : ∀ {state next unread rest reports},
      second state unread = .done (.again next) rest reports → Ended rest) (state : σ) :
    (repeating first state >>= repeating second) = repeating whole state := by
  have hwhole : PassRounds whole := by
    intro state next unread rest reports hround
    by_cases hend : Ended unread
    · exact hsecond ((hended hend state).2.symm.trans hround)
    · exact hfirst ((hgoes hend state).1.symm.trans hround)
  have hpast {unread : List Lexeme} (hend : Ended unread) (state : σ) :
      (repeating first state >>= repeating second) unread = repeating second state unread :=
    bind_of_silent _ (repeatFor_of_finish unread (hended hend state).1)
  funext unread
  induction hsize : unread.length using Nat.strongRecOn generalizing state unread with
  | ind size ih =>
    subst hsize
    by_cases hend : Ended unread
    · have hsame := (hended hend state).2
      rw [hpast hend]
      cases hround : second state unread with
      | done turn rest reports =>
        rw [hround] at hsame
        cases turn with
        | again next =>
          rw [repeating_of_again hsecond hround, repeating_of_again hwhole hsame,
            ← ih _ (hsecond hround) next rest rfl, hpast (hbehind hround)]
        | finish last =>
          exact (repeatFor_of_finish unread hround).trans (repeatFor_of_finish unread hsame).symm
      | failed =>
        rw [hround] at hsame
        exact (repeatFor_of_failed unread hround).trans (repeatFor_of_failed unread hsame).symm
      | stopped =>
        rw [hround] at hsame
        exact (repeatFor_of_stopped unread hround).trans (repeatFor_of_stopped unread hsame).symm
    · obtain ⟨hsame, hnot⟩ := hgoes hend state
      cases hround : first state unread with
      | done turn rest reports =>
        rw [hround] at hsame
        cases turn with
        | again next =>
          rw [repeating_of_again hwhole hsame, ← ih _ (hfirst hround) next rest rfl]
          exact bind_of_after _ (repeating_of_again hfirst hround)
        | finish last => exact absurd hround (hnot last rest reports)
      | failed =>
        rw [hround] at hsame
        exact (bind_of_failed _ (repeatFor_of_failed unread hround)).trans
          (repeatFor_of_failed unread hsame).symm
      | stopped =>
        rw [hround] at hsame
        exact (bind_of_stopped _ (repeatFor_of_stopped unread hround)).trans
          (repeatFor_of_stopped unread hsame).symm

end Passing

section Statements

variable {parser : Parser Statement} {closing : List String} {items last : List Statement}
  {unread rest : List Lexeme} {reports : List Report}

/-- A round of a list of statements ends the list at the end of the input and at a closing mark; at
any other place it puts a statement in front of those that are held. -/
theorem Parser.nextStatement_apply (parser : Parser Statement) (closing : List String)
    (items : List Statement) (unread : List Lexeme) :
    nextStatement parser closing items unread =
      if unread.head?.isNone ∨ unread.head?.any (·.isMarkOf closing) then
        .done (.finish items) unread []
      else ((fun item => .again (item :: items)) <$> passing (recovered parser)) unread := by
  unfold nextStatement
  rw [atEnd_bind]
  by_cases hend : unread.head?.isNone = true
  · rw [if_pos hend, if_pos (.inl hend)]
    rfl
  · rw [if_neg hend, nextIsMark_bind]
    by_cases hclosing : unread.head?.any (·.isMarkOf closing) = true
    · rw [if_pos hclosing, if_pos (.inr hclosing)]
      rfl
    · rw [if_neg hclosing, if_neg (by simp [hend, hclosing])]
      rfl

/-- Where a list of statements does not end, a statement that is read there is held. -/
theorem Parser.nextStatement_of_recovered {item : Statement} (items : List Statement)
    (hgoes : ¬(unread.head?.isNone ∨ unread.head?.any (·.isMarkOf closing)))
    (hitem : recovered parser unread = .done item rest reports)
    (hless : rest.length < unread.length) :
    nextStatement parser closing items unread = .done (.again (item :: items)) rest reports := by
  rw [nextStatement_apply, if_neg hgoes, map_of_done _ (passing_of_done hitem hless)]

/-- A round of a list of statements that goes on has read a statement. -/
theorem Parser.nextStatement_again {next : List Statement}
    (hround : nextStatement parser closing items unread = .done (.again next) rest reports) :
    ∃ item, next = item :: items ∧ passing (recovered parser) unread = .done item rest reports ∧
      ∀ held, nextStatement parser closing held unread =
        .done (.again (item :: held)) rest reports := by
  rw [nextStatement_apply] at hround
  split at hround
  · cases hround
  · next hgoes =>
    obtain ⟨item, middle, earlier, later, hitem, hturn, rfl⟩ := exists_of_bind_eq_done hround
    obtain ⟨hnext, rfl, rfl⟩ := Reply.done.inj hturn
    rw [List.append_nil]
    refine ⟨item, (Turn.again.inj hnext).symm, hitem, fun held => ?_⟩
    rw [nextStatement_apply, if_neg hgoes, map_of_done _ hitem]

/-- A round of a list of statements that is the last reads nothing. -/
theorem Parser.nextStatement_finish
    (hround : nextStatement parser closing items unread = .done (.finish last) rest reports) :
    last = items ∧ (unread.head?.isNone = true ∨ unread.head?.any (·.isMarkOf closing) = true) ∧
      ∀ held, nextStatement parser closing held unread =
        .done (.finish held) rest reports := by
  rw [nextStatement_apply] at hround
  split at hround
  · next hends =>
    obtain ⟨hturn, rfl, rfl⟩ := Reply.done.inj hround
    refine ⟨(Turn.finish.inj hturn).symm, hends, fun held => ?_⟩
    rw [nextStatement_apply, if_pos hends]
  · obtain ⟨item, middle, earlier, later, -, hturn, -⟩ := exists_of_bind_eq_done hround
    cases hturn

/-- What is held before the rounds of a list of statements stays behind what they add. -/
theorem Rounds.append (held : List Statement)
    (hrounds : Rounds (nextStatement parser closing) items unread last rest reports) :
    Rounds (nextStatement parser closing) (items ++ held) unread (last ++ held) rest reports := by
  induction hrounds with
  | finish hround =>
    obtain ⟨rfl, -, hany⟩ := nextStatement_finish hround
    exact .finish (hany _)
  | again hround _ ih =>
    obtain ⟨item, rfl, -, hany⟩ := nextStatement_again hround
    exact .again (hany _) ih

/-- The rounds of a list of statements keep what is held before them. -/
theorem Rounds.exists_found
    (hrounds : Rounds (nextStatement parser closing) items unread last rest reports) :
    ∃ found, last = found ++ items := by
  induction hrounds with
  | finish hround =>
    obtain ⟨rfl, -, -⟩ := nextStatement_finish hround
    exact ⟨[], rfl⟩
  | again hround _ ih =>
    obtain ⟨item, rfl, -, -⟩ := nextStatement_again hround
    obtain ⟨found, rfl⟩ := ih
    exact ⟨found ++ [item], List.append_cons found item _⟩

end Statements

end BraceLang
