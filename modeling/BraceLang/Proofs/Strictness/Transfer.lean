import BraceLang.Proofs.Construction.Yields
import BraceLang.Proofs.Parsing.Rounds

/-!
# Parsers that come to the same values

Two parsers may differ in what they refuse. A parser transfers to another one on the values that are
accepted if the other one comes to each of them in the same way, wherever the first does so without
a report.

What is accepted of the whole has to be accepted of its parts. So behind each part of a parser
nothing may come to an accepted value unless the part is accepted. Then transfer is composed along
parsers: what follows a part runs on the same lexemes, and a repetition goes through the same
rounds.
-/

namespace BraceLang

variable {α β γ σ : Type}

/-- A condition on what a repetition holds behind a round: one where it goes on, another one where
the round is the last. -/
def Turn.Meets (held accepted : σ → Prop) : Turn σ → Prop
  | .again state => held state
  | .finish state => accepted state

namespace Parser

/-- Wherever a parser comes without a report to a value that is accepted, another one comes to the
same value and leaves the same unread, without a report. -/
def Transfers (accepted : α → Prop) (parser other : Parser α) : Prop :=
  ∀ unread value rest, parser unread = .done value rest [] → accepted value →
    other unread = .done value rest []

/-- What holds wherever a parser comes to a value that is accepted. -/
abbrev Requires (accepted : α → Prop) (parser : Parser α) (condition : Prop) : Prop :=
  parser.Yields fun value _ => accepted value → condition

/-- Nothing is said about the values of a parser. -/
theorem Yields.any (parser : Parser α) : parser.Yields fun _ _ => True := by
  intro unread
  cases parser unread <;> trivial

namespace Transfers

variable {parser other : Parser α} {next further : α → Parser β} {first : α → Prop}
  {accepted : β → Prop}

/-- A parser comes to what it comes to. -/
theorem same (accepted : α → Prop) (parser : Parser α) : Transfers accepted parser parser :=
  fun _ _ _ hdone _ => hdone

/-- A parser that comes to no value. -/
theorem of_failing (hparser : ∀ unread value rest, parser unread ≠ .done value rest [])
    (accepted : α → Prop) (other : Parser α) : Transfers accepted parser other :=
  fun unread value rest hdone _ => absurd hdone (hparser unread value rest)

/-- What follows a part that has to be accepted. -/
theorem bind (hparser : Transfers first parser other)
    (hkeeps : ∀ value, (next value).Requires accepted (first value))
    (hnext : ∀ value, Transfers accepted (next value) (further value)) :
    Transfers accepted (parser >>= next) (other >>= further) := by
  intro unread value rest hdone haccepted
  obtain ⟨part, between, hfirst, hlast⟩ := exists_of_bind_eq_silent hdone
  have hpart := hkeeps part between
  rw [hlast] at hpart
  rw [bind_of_silent further (hparser unread part between hfirst (hpart haccepted))]
  exact hnext part between value rest hlast haccepted

/-- What follows a part that is read in one way only. -/
theorem behind (parser : Parser α)
    (hnext : ∀ value, Transfers accepted (next value) (further value)) :
    Transfers accepted (parser >>= next) (parser >>= further) := by
  intro unread value rest hdone haccepted
  obtain ⟨part, between, hfirst, hlast⟩ := exists_of_bind_eq_silent hdone
  rw [bind_of_silent further hfirst]
  exact hnext part between value rest hlast haccepted

/-- A value that is made of a part. -/
theorem returning {make : α → β} (hparser : Transfers first parser other)
    (hmake : ∀ value, accepted (make value) → first value) :
    Transfers accepted (parser >>= fun value => pure (make value))
      (other >>= fun value => pure (make value)) :=
  hparser.bind (fun value => .pure (hmake value)) fun value => .same accepted (pure (make value))

/-- A value that is made of a part behind what closes it. -/
theorem closing {make : α → β} (hparser : Transfers first parser other) (behind : Parser γ)
    (hmake : ∀ value, accepted (make value) → first value) :
    Transfers accepted (parser >>= fun value => behind >>= fun _ => pure (make value))
      (other >>= fun value => behind >>= fun _ => pure (make value)) :=
  hparser.bind (fun value => (Yields.any behind).bind fun _ _ _ => .pure (hmake value))
    fun _ => .same accepted _

/-- Either way behind a question. -/
theorem either {yes no yes' no' : Parser β} (question : Parser Bool)
    (hyes : Transfers accepted yes yes') (hno : Transfers accepted no no') :
    Transfers accepted (question >>= fun answer => if answer = true then yes else no)
      (question >>= fun answer => if answer = true then yes' else no') := by
  refine .behind question fun answer => ?_
  split
  · exact hyes
  · exact hno

end Transfers

section Repetitions

variable {round further : σ → Parser (Turn σ)} {held accepted : σ → Prop}

/-- A repetition comes to nothing that is accepted unless what it begins with is fit to be held. -/
theorem Requires.repeating
    (hkeeps : ∀ state, (round state).Requires (Turn.Meets held accepted) (held state))
    (state : σ) : (repeating round state).Requires accepted (held state) := by
  refine Yields.repeating (fun later _ => held later → held state) (fun later _ hlater => ?_) id
  refine (hkeeps later).mono fun turn _ hturn => ?_
  cases turn with
  | again next | finish last => exact fun hmeets => hlater (hturn hmeets)

/-- A repetition goes through the same rounds. -/
private theorem repeatFor_transfers
    (hkeeps : ∀ state, (round state).Requires (Turn.Meets held accepted) (held state))
    (hround : ∀ state, Transfers (Turn.Meets held accepted) (round state) (further state))
    {rounds unread rest : List Lexeme} {state last : σ}
    (hdone : repeatFor round rounds state unread = .done last rest []) (hlast : accepted last) :
    held state ∧ repeatFor further rounds state unread = .done last rest [] := by
  refine repeatFor_induction (motive := fun rounds state unread reports => reports = [] →
    held state ∧ repeatFor further rounds state unread = .done last rest []) ?_ ?_ hdone rfl
  · rintro rounds state unread _ hfinish rfl
    have hstate := hkeeps state unread
    rw [hfinish] at hstate
    exact ⟨hstate hlast,
      repeatFor_of_finish rounds (hround state unread _ rest hfinish hlast)⟩
  · intro lexeme rounds state next unread middle earlier later hagain _ ih hreports
    obtain ⟨rfl, rfl⟩ := List.append_eq_nil_iff.mp hreports
    obtain ⟨hnext, hrest⟩ := ih rfl
    have hstate := hkeeps state unread
    rw [hagain] at hstate
    refine ⟨hstate hnext, ?_⟩
    rw [repeatFor_of_again lexeme rounds (hround state unread _ middle hagain hnext), hrest]
    rfl

/-- A loop transfers with its rounds, if what a round requires holds of all that was held before. -/
theorem Transfers.repeating (held : σ → Prop)
    (hkeeps : ∀ state, (round state).Requires (Turn.Meets held accepted) (held state))
    (hround : ∀ state, Transfers (Turn.Meets held accepted) (round state) (further state))
    (state : σ) : Transfers accepted (repeating round state) (repeating further state) :=
  fun _ _ _ hdone haccepted => (repeatFor_transfers hkeeps hround hdone haccepted).2

/-- A part and a repetition that begins with it. -/
theorem Transfers.extended {parser other : Parser σ} (hparser : Transfers held parser other)
    (hkeeps : ∀ state, (round state).Requires (Turn.Meets held accepted) (held state))
    (hround : ∀ state, Transfers (Turn.Meets held accepted) (round state) (further state)) :
    Transfers accepted (parser >>= Parser.repeating round) (other >>= Parser.repeating further) :=
  hparser.bind (.repeating hkeeps) (.repeating held hkeeps hround)

end Repetitions

section Lists

variable {accepted : α → Prop}

/-- One more item is accepted only if those before it are. -/
theorem forall_mem_of_cons {items : List α} {item : α}
    (hitems : ∀ value ∈ item :: items, accepted value) : ∀ value ∈ items, accepted value :=
  (List.forall_mem_cons.mp hitems).2

/-- Items in their order are accepted where they are as they are held. -/
theorem forall_mem_of_reverse {items : List α} (hitems : ∀ value ∈ items.reverse, accepted value) :
    ∀ value ∈ items, accepted value :=
  fun value hmem => hitems value (List.mem_reverse.mpr hmem)

/-- The condition on what a list parser holds: each item is accepted. -/
abbrev AllMeet (accepted : α → Prop) : Turn (List α) → Prop :=
  Turn.Meets (fun items => ∀ value ∈ items, accepted value)
    (fun items => ∀ value ∈ items, accepted value)

/-- A round that reads an item and holds it in front of the others. -/
theorem Transfers.again {item other : Parser α} (hitem : Transfers accepted item other)
    (items : List α) :
    Transfers (AllMeet accepted) (item >>= fun next => pure (.again (next :: items)))
      (other >>= fun next => pure (.again (next :: items))) :=
  hitem.returning fun _ hitems => (List.forall_mem_cons.mp hitems).1

/-- A round that holds an item more than the round before. -/
theorem Requires.again (item : Parser α) (items : List α) :
    (item >>= fun next => pure (Turn.again (next :: items))).Requires (AllMeet accepted)
      (∀ value ∈ items, accepted value) :=
  (Yields.any item).returning fun _ _ _ => forall_mem_of_cons

/-- A round that holds what the round before did. -/
theorem Requires.finish (items : List α) :
    (pure (Turn.finish items) : Parser (Turn (List α))).Requires (AllMeet accepted)
      (∀ value ∈ items, accepted value) :=
  .pure id

/-- A repetition that holds items. -/
theorem Transfers.gathering {round further : List α → Parser (Turn (List α))}
    (hkeeps : ∀ items, (round items).Requires (AllMeet accepted) (∀ value ∈ items, accepted value))
    (hround : ∀ items, Transfers (AllMeet accepted) (round items) (further items))
    (items : List α) :
    Transfers (fun items => ∀ value ∈ items, accepted value) (Parser.repeating round items)
      (Parser.repeating further items) :=
  .repeating _ hkeeps hround items

/-- Items with commas between them up to a closing mark. -/
theorem Transfers.listed {item other : Parser α} (hitem : Transfers accepted item other)
    (closing : String) :
    Transfers (fun items => ∀ value ∈ items, accepted value) (listed item closing)
      (listed other closing) := by
  have hkeeps (items : List α) : (nextListed item closing items).Requires (AllMeet accepted)
      (∀ value ∈ items, accepted value) :=
    (accept_silent _).either
      ((nextIsMark_silent _).either (Requires.finish items) (Requires.again item items))
      (Requires.finish items)
  have hround (items : List α) :
      Transfers (AllMeet accepted) (nextListed item closing items)
        (nextListed other closing items) :=
    .either _ (.either _ (.same _ _) (hitem.again items)) (.same _ _)
  unfold Parser.listed
  refine .either _ (.same _ _) (hitem.bind (fun first => ?_) fun first => ?_)
  · have hrounds : (Parser.repeating (nextListed item closing) [first]).Requires
        (fun items => ∀ value ∈ items, accepted value) (∀ value ∈ [first], accepted value) :=
      Requires.repeating hkeeps [first]
    exact hrounds.returning fun items _ hfirst hitems =>
      hfirst (forall_mem_of_reverse hitems) first List.mem_cons_self
  · exact (Transfers.gathering hkeeps hround [first]).returning
      fun items => forall_mem_of_reverse

/-- Items with separators between them up to a closing mark or to the end. -/
theorem Transfers.upTo {item other : List α → Parser α}
    (hitem : ∀ items, Transfers accepted (item items) (other items)) (separators : List String)
    (closing : String) :
    Transfers (fun items => ∀ value ∈ items, accepted value) (upTo item separators closing)
      (upTo other separators closing) := by
  unfold Parser.upTo
  refine .returning (.gathering (fun items => ?_) (fun items => ?_) [])
    fun items => forall_mem_of_reverse
  · refine (nextIsMark_silent _).either (Requires.finish items)
      (atEnd_silent.either (Requires.finish items) ?_)
    refine (Yields.any (item items)).bind fun next _ _ => ?_
    exact (accept_silent _).either (.pure forall_mem_of_cons) (.pure forall_mem_of_cons)
  · refine .either _ (.same _ _) (.either _ (.same _ _) ?_)
    refine (hitem items).bind (fun next => ?_) fun next => .same _ _
    have hnext {items : List α} (hitems : ∀ value ∈ next :: items, accepted value) :
        accepted next := (List.forall_mem_cons.mp hitems).1
    exact (accept_silent _).either (.pure hnext) (.pure hnext)

end Lists

section Statements

variable {accepted : Statement → Prop} {statement other : Parser Statement}

/-- Without a report there is nothing to recover from, and a lexeme is passed by one parser where it
is by the other. -/
theorem Transfers.passing_recovered (hstatement : Transfers accepted statement other) :
    Transfers accepted (passing (recovered statement)) (passing (recovered other)) := by
  intro unread item rest hdone haccepted
  obtain ⟨left, hleft, rfl⟩ := done_of_passing hdone
  have hother := hstatement unread item left (done_of_recovered hleft) haccepted
  rw [passing, recovered_of_done hother]

/-- A block transfers with its statements. -/
theorem Transfers.statements (hstatement : Transfers accepted statement other)
    (closing : List String) :
    Transfers (fun items => ∀ item ∈ items, accepted item) (statements statement closing)
      (statements other closing) := by
  unfold Parser.statements
  refine .returning (.gathering (fun items => ?_) (fun items => ?_) [])
    fun items => forall_mem_of_reverse
  · exact atEnd_silent.either (Requires.finish items)
      ((nextIsMark_silent _).either (Requires.finish items) (Requires.again _ items))
  · exact .either _ (.same _ _) (.either _ (.same _ _) (hstatement.passing_recovered.again items))

end Statements

end Parser

end BraceLang
