import BraceLang.Proofs.Lockstep.Parsers
import BraceLang.Proofs.Parsing.Rounds

/-!
# Repetitions in step

A repetition of rounds that are in step goes round as often on a copy. A round behind a semicolon
may find nothing unread and be the last one, where on the copy it need not be.
-/

namespace BraceLang.Parser

variable {α β σ : Type} {before behind : List Lexeme → List Lexeme → Prop} {pairing : Pairing}
  {parser : Parser α} {next : α → Parser β}

/-- Where nothing is inside there is no value. -/
theorem InStep.nested {inside : Option Layer} {parser : Layer → Parser α}
    (hparser : ∀ layer ∈ inside, InStep before behind (parser layer)) :
    InStep before behind (BraceLang.nested inside parser) := by
  cases inside with
  | none => exact .of_faulty fun unread value rest hdone => nomatch hdone
  | some layer => exact hparser layer rfl

namespace KeepsSome

/-- What is read one level further in is read in step as it is read here. -/
theorem nested {inside : Option Layer} {parser : Layer → Parser α}
    (hparser : ∀ layer ∈ inside, KeepsSome pairing (parser layer)) :
    KeepsSome pairing (BraceLang.nested inside parser) := by
  cases inside with
  | none => exact fun _ _ _ _ _ hdone => nomatch hdone
  | some layer => exact hparser layer rfl

/-- What follows a parser that is in step. -/
theorem after (hparser : Keeps pairing parser) (hnext : ∀ value, KeepsSome pairing (next value)) :
    KeepsSome pairing (parser >>= next) := by
  intro unread copy hpaired value rest hdone
  obtain ⟨first, between, hfirst, hlast⟩ := exists_of_bind_eq_silent hdone
  obtain ⟨left, hother, hleft⟩ := hparser unread copy hpaired first between hfirst
  rw [bind_of_silent next hother]
  exact hnext first between left hleft value rest hlast

/-- What follows and needs something to read makes up for the end of the input. -/
theorem bind (hparser : KeepsSome pairing parser) (hnext : ∀ value, Keeps pairing (next value))
    (hend : ∀ value, (next value []).Faulty) : Keeps pairing (parser >>= next) := by
  intro unread copy hpaired value rest hdone
  obtain ⟨first, between, hfirst, hlast⟩ := exists_of_bind_eq_silent hdone
  rcases hparser unread copy hpaired first between hfirst with rfl | ⟨left, hother, hleft⟩
  · exact absurd hlast (hend first value rest)
  · rw [bind_of_silent next hother]
    exact hnext first between left hleft value rest hlast

/-- A list up to its closing mark. -/
theorem closed (mark : String) {expected : Expected} (hparser : KeepsSome pairing parser)
    (hmark : ";" ∉ [mark]) (hnext : ∀ value, Keeps pairing (next value)) :
    Keeps pairing (parser >>= fun value => expectMark mark expected >>= fun _ => next value) :=
  hparser.bind (fun value => (expectMark_keeps hmark expected).bind fun _ => hnext value)
    fun _ => .bind (expectMark_end mark expected)

/-- A function applied to a value changes nothing. -/
theorem map (function : α → β) (hparser : KeepsSome pairing parser) :
    KeepsSome pairing (parser >>= fun value => pure (function value)) := by
  intro unread copy hpaired value rest hdone
  obtain ⟨first, between, hfirst, hlast⟩ := exists_of_bind_eq_silent hdone
  obtain ⟨rfl, rfl, -⟩ := Reply.done.inj hlast
  refine (hparser unread copy hpaired first between hfirst).imp_right ?_
  rintro ⟨left, hother, hleft⟩
  exact ⟨left, bind_of_silent _ hother, hleft⟩

end KeepsSome

section Repetitions

variable {round : σ → Parser (Turn σ)}

/-- A repetition of rounds that are in step unless they come to a place where no more is said. The
copy may take at least as many rounds. -/
private theorem repeatFor_inStep (round : σ → Parser (Turn σ)) (ended : List Lexeme → Prop)
    (hround : ∀ {state unread copy turn rest}, pairing.Paired unread copy →
      round state unread = .done turn rest [] →
        ended rest ∨ ∃ left, round state copy = .done turn left [] ∧ pairing.Paired rest left)
    (hended : ∀ {state unread turn rest reports}, ended unread →
      round state unread = .done turn rest reports → ended rest)
    {rounds more unread copy rest : List Lexeme} {state last : σ}
    (hmore : rounds.length ≤ more.length) (hpaired : pairing.Paired unread copy)
    (hdone : repeatFor round rounds state unread = .done last rest []) :
    ended rest ∨
      ∃ left, repeatFor round more state copy = .done last left [] ∧ pairing.Paired rest left := by
  -- by the rounds of the input, whatever the copy is and however many rounds it has left
  refine repeatFor_induction (motive := fun rounds state unread reports =>
    ∀ more copy : List Lexeme, reports = [] → rounds.length ≤ more.length →
      pairing.Paired unread copy → ended rest ∨ ∃ left,
        repeatFor round more state copy = .done last left [] ∧ pairing.Paired rest left)
    ?_ ?_ hdone more copy rfl hmore hpaired
  · rintro rounds state unread _ hfinish more copy rfl - hpaired
    refine (hround hpaired hfinish).imp_right ?_
    rintro ⟨left, hother, hleft⟩
    exact ⟨left, repeatFor_of_finish more hother, hleft⟩
  · intro lexeme rounds state next unread middle earlier later hagain hlater ih more copy hreports
      hmore hpaired
    obtain ⟨rfl, rfl⟩ := List.append_eq_nil_iff.mp hreports
    rcases hround hpaired hagain with hmiddle | ⟨left, hother, hleft⟩
    · exact .inl ((Rounds.of_repeatFor hlater).invariant hended hmiddle)
    · obtain ⟨first, more, rfl⟩ :=
        List.exists_cons_of_length_pos (Nat.lt_of_lt_of_le (by simp) hmore)
      rw [repeatFor_of_again first more hother, Reply.after_nil]
      exact ih more left rfl (Nat.le_of_succ_le_succ hmore) hleft

/-- A copy may take as many rounds as its input, or more. -/
private theorem length_le_copy {unread copy : List Lexeme} (hpaired : pairing.Paired unread copy) :
    unread.length ≤ copy.length := by
  rw [pairing.length_eq hpaired]
  exact Nat.le_add_right _ _

/-- A repetition of rounds that are in step. -/
theorem InStep.repeating (hround : ∀ state, Keeps pairing (round state)) (state : σ) :
    Keeps pairing (repeating round state) := by
  intro unread copy hpaired value rest hdone
  have hstep := repeatFor_inStep round (fun _ => False)
    (fun hpaired hturn => .inr (hround _ _ _ hpaired _ _ hturn)) (fun hfalse => hfalse.elim)
    (length_le_copy hpaired) hpaired hdone
  exact hstep.resolve_left id

/-- A repetition of rounds that may leave nothing, behind which there is no further round. -/
theorem KeepsSome.repeating (hround : ∀ state, Ends pairing (round state))
    (hend : ∀ state, round state [] = .done (.finish state) [] []) (state : σ) :
    KeepsSome pairing (repeating round state) := by
  intro unread copy hpaired value rest hdone
  refine repeatFor_inStep round (· = []) (fun hpaired hturn => ?_) ?_ (length_le_copy hpaired)
    hpaired hdone
  · obtain ⟨left, hother, hleft | ⟨hnothing, -⟩⟩ := hround _ _ _ hpaired _ _ hturn
    · exact .inr ⟨left, hother, hleft⟩
    · exact .inl hnothing
  · rintro state _ turn rest reports rfl hturn
    rw [hend] at hturn
    exact (Reply.done.inj hturn).2.1.symm

end Repetitions

section Lists

variable {item : Parser α}

/-- Items with commas between them are read in step. -/
theorem InStep.separated (hitem : Keeps pairing item) : Keeps pairing (separated item) := by
  refine hitem.bind fun first => .bind (.repeating (fun items => ?_) _) fun items => .pure _
  exact (accept_keeps (by decide)).either (hitem.bind fun next => .pure _) (.pure _)

/-- So are those up to a closing mark. -/
theorem InStep.listed (hitem : Keeps pairing item) (closing : String) :
    Keeps pairing (listed item closing) := by
  refine (nextIsMark_keeps _).either (.pure _) (hitem.bind fun first => ?_)
  refine .bind (.repeating (fun items => ?_) _) fun items => .pure _
  refine (accept_keeps (by decide)).either ((nextIsMark_keeps _).either (.pure _) ?_) (.pure _)
  exact hitem.bind fun next => .pure _

/-- The separators may be semicolons. -/
theorem KeepsSome.upTo {item : List α → Parser α} (hitem : ∀ items, Keeps pairing (item items))
    (separators : List String) (closing : String) :
    KeepsSome pairing (upTo item separators closing) := by
  refine .map _ (.repeating (fun items => ?_) (fun _ => rfl) _)
  have hfinish : Ends pairing (pure (.finish items) : Parser (Turn (List α))) :=
    Keeps.ends (.pure _)
  refine (nextIsMark_keeps _).either hfinish (atEnd_keeps.either hfinish ?_)
  exact (hitem items).bind fun next => (accept_ends _).either (.pure _) (.pure _)

end Lists

section Statements

variable {statement : Parser Statement} {closing : List String} {unread copy : List Lexeme}

/-- Without a report there is nothing to recover from, and no lexeme to pass. -/
theorem Ends.passing_recovered (hstatement : Ends pairing statement)
    (hpaired : pairing.Paired unread copy) (hunread : unread ≠ []) :
    (passing (recovered statement) unread).AgreesWith pairing.After
      (passing (recovered statement) copy) := by
  intro value rest hdone
  unfold passing recovered at hdone ⊢
  cases hreply : statement unread with
  | done item middle reports =>
    rw [hreply] at hdone
    obtain ⟨rfl, rfl, rfl⟩ := Reply.done.inj hdone
    obtain ⟨left, hother, hleft⟩ := hstatement unread copy hpaired item middle hreply
    rw [hother]
    -- a copy is longer by the same number everywhere, so both have passed a lexeme or neither has
    have hshorter : left.length < copy.length ↔ middle.length < unread.length := by
      rw [hleft.length_eq, pairing.length_eq hpaired]
      omega
    simp only [hshorter]
    refine ⟨_, rfl, ?_⟩
    split
    · exact hleft
    · rcases hleft with hmiddle | ⟨rfl, -⟩
      · exact Pairing.after_tail hmiddle
      · have hpositive := List.length_pos_iff.mpr hunread
        contradiction
  | failed report middle reports =>
    rw [hreply] at hdone
    have hreports := (Reply.done.inj hdone).2.2
    simp at hreports
  | stopped halt =>
    rw [hreply] at hdone
    cases hdone

/-- The next statement is read in step, and may leave nothing. -/
theorem Ends.nextStatement (hstatement : Ends pairing statement) (closing : List String)
    (items : List Statement) : Ends pairing (nextStatement statement closing items) := by
  intro unread copy hpaired
  rw [nextStatement_apply, nextStatement_apply, Pairing.head_isNone hpaired,
    Pairing.head_any hpaired (Pairing.blind_isMarkOf closing)]
  split
  · exact Keeps.ends (.pure _) unread copy hpaired
  · next hgoes =>
    have hunread : unread ≠ [] := fun hnil => hgoes (.inl (by simp [hnil]))
    exact .bind (hstatement.passing_recovered hpaired hunread)
      fun item rest left hrest value last => InStep.pure _ rest left hrest value last

/-- A list of statements is read in step, unless it leaves nothing. -/
theorem KeepsSome.statements (hstatement : Ends pairing statement) (closing : List String) :
    KeepsSome pairing (statements statement closing) :=
  .map _ (.repeating (hstatement.nextStatement closing) (fun _ => rfl) _)

end Statements

end BraceLang.Parser
