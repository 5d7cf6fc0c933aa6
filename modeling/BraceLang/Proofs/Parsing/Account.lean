import BraceLang.Proofs.Parsing.Steps

/-!
# Accounts of parsing

An account of a reply says that nothing is lost between what was unread before and what is unread
behind it: the lexemes in between were passed, every number among them was read, and a stop is the
fault of a number that cannot be read. So no repetition is endless. What else holds of a value and
of the lexemes passed for it is told by a condition on both.

Where nesting goes too deep whole groups are passed unread. The account of the numbers therefore
holds only of inputs with no more nesting marks than there are levels left.
-/

namespace BraceLang

/-- A lexeme that is no number, or one that can be read. -/
def Lexeme.IsReadable (lexeme : Lexeme) : Prop :=
  lexeme.kind = .number → ∃ value, Numeral.read lexeme.text = .ok value

/-- A number that cannot be read, and why. -/
def Lexeme.IsUnreadable (lexeme : Lexeme) (error : Numeral.Error) : Prop :=
  lexeme.kind = .number ∧ Numeral.read lexeme.text = .error error

/-- A lexeme that is not readable is a number with an error. -/
theorem Lexeme.not_isReadable_iff (lexeme : Lexeme) :
    ¬lexeme.IsReadable ↔ ∃ error, lexeme.IsUnreadable error := by
  unfold IsReadable IsUnreadable
  cases Numeral.read lexeme.text with
  | ok value => simp
  | error error => simp

/-- A lexeme of another kind than numbers is readable. -/
theorem Lexeme.isReadable_of_kind {lexeme : Lexeme} (hkind : lexeme.kind ≠ .number) :
    lexeme.IsReadable :=
  fun hnumber => absurd hnumber hkind

/-- A mark is no number. -/
theorem Lexeme.isReadable_of_isMarkOf {lexeme : Lexeme} {marks : List String}
    (hmark : lexeme.isMarkOf marks = true) : lexeme.IsReadable := by
  refine isReadable_of_kind fun hkind => ?_
  simp [isMarkOf, isMark, hkind] at hmark

/-- A word is no number. -/
theorem Lexeme.isReadable_of_isWord {lexeme : Lexeme} (hword : lexeme.isWord = true) :
    lexeme.IsReadable := by
  refine isReadable_of_kind fun hkind => ?_
  simp [isWord, hkind] at hword

/-- The marks that may open a level of nesting. -/
def nestingMarks : List String := ["(", "[", "\x7b", "<", "-", "!"]

/-- How many lexemes may open a level of nesting. -/
def openings (lexemes : List Lexeme) : Nat := lexemes.countP (·.isMarkOf nestingMarks)

/-- The openings of a row are those of its parts. -/
@[simp] theorem openings_append (left right : List Lexeme) :
    openings (left ++ right) = openings left + openings right :=
  List.countP_append

/-- A nesting mark in front is one more opening. -/
theorem openings_cons_of_isMarkOf {lexeme : Lexeme} (rest : List Lexeme)
    (hmark : lexeme.isMarkOf nestingMarks = true) :
    openings (lexeme :: rest) = openings rest + 1 :=
  List.countP_cons_of_pos hmark

/-- Every number among the lexemes passed was read, provided that the levels left suffice for what
was unread. -/
def NumbersRead (levels : Nat) (unread passed : List Lexeme) : Prop :=
  openings unread ≤ levels → ∀ lexeme ∈ passed, lexeme.IsReadable

/-- A condition on a value, the lexemes passed for it, those unread behind it, and the reports. -/
abbrev Outcome (α : Type) := α → List Lexeme → List Lexeme → List Report → Prop

/-- A reply accounts for the lexemes passed since a number of them was unread. -/
def Reply.Accounts {α : Type} (levels : Nat) (unread : List Lexeme) (outcome : Outcome α) :
    Reply α → Prop
  | .done value rest reports =>
    ∃ passed, unread = passed ++ rest ∧ NumbersRead levels unread passed ∧
      outcome value passed rest reports
  | .failed _ rest _ => ∃ passed, unread = passed ++ rest ∧ NumbersRead levels unread passed
  | .stopped halt => ∃ error, halt = .unreadable error ∧ ∃ lexeme ∈ unread,
    lexeme.IsUnreadable error

namespace Reply.Accounts

variable {α β σ : Type} {levels : Nat} {unread : List Lexeme}

/-- An account of a weaker outcome. -/
theorem mono {reply : Reply α} {outcome weaker : Outcome α}
    (haccount : reply.Accounts levels unread outcome)
    (hweaker : ∀ value passed rest reports, unread = passed ++ rest →
      outcome value passed rest reports → weaker value passed rest reports) :
    reply.Accounts levels unread weaker := by
  cases reply with
  | done value rest reports =>
    obtain ⟨passed, hsplit, hread, hvalue⟩ := haccount
    exact ⟨passed, hsplit, hread, hweaker _ _ _ _ hsplit hvalue⟩
  | failed => exact haccount
  | stopped => exact haccount

/-- Reports in front of a reply are reports of its outcome. -/
theorem after {reply : Reply α} {reports : List Report} {outcome : Outcome α}
    (haccount : reply.Accounts levels unread fun value passed rest later =>
      outcome value passed rest (reports ++ later)) :
    (reply.after reports).Accounts levels unread outcome := by
  cases reply <;> exact haccount

/-- An account of what was unread behind a row of lexemes is one of the whole. -/
theorem append {reply : Reply α} {passed rest : List Lexeme} {outcome : Outcome α}
    (hread : NumbersRead levels (passed ++ rest) passed)
    (haccount : reply.Accounts levels rest fun value more left reports =>
      outcome value (passed ++ more) left reports) :
    reply.Accounts levels (passed ++ rest) outcome := by
  have hlevels : ∀ {more}, NumbersRead levels rest more →
      NumbersRead levels (passed ++ rest) (passed ++ more) := by
    intro more hmore hle lexeme hmem
    rcases List.mem_append.mp hmem with hpassed | hlater
    · exact hread hle lexeme hpassed
    · exact hmore (by rw [openings_append] at hle; omega) lexeme hlater
  cases reply with
  | done value left reports =>
    obtain ⟨more, rfl, hmore, hvalue⟩ := haccount
    exact ⟨passed ++ more, by simp, hlevels hmore, hvalue⟩
  | failed report left reports =>
    obtain ⟨more, rfl, hmore⟩ := haccount
    exact ⟨passed ++ more, by simp, hlevels hmore⟩
  | stopped halt =>
    obtain ⟨error, hhalt, lexeme, hmem, hunreadable⟩ := haccount
    exact ⟨error, hhalt, lexeme, List.mem_append_right passed hmem, hunreadable⟩

/-- An account of what was unread behind a lexeme is one of the whole. -/
theorem cons {reply : Reply α} {lexeme : Lexeme} {rest : List Lexeme} {outcome : Outcome α}
    (hreadable : lexeme.IsReadable)
    (haccount : reply.Accounts levels rest fun value more left reports =>
      outcome value (lexeme :: more) left reports) :
    reply.Accounts levels (lexeme :: rest) outcome := by
  have hread : NumbersRead levels ([lexeme] ++ rest) [lexeme] := by
    intro _ other hmem
    rwa [List.mem_singleton.mp hmem]
  exact append hread haccount

/-- Behind a nesting mark one level less suffices. -/
theorem opened {reply : Reply α} {mark : Lexeme} {rest : List Lexeme} {outcome : Outcome α}
    (hmark : mark.isMarkOf nestingMarks = true)
    (haccount : reply.Accounts levels rest fun value more left reports =>
      outcome value (mark :: more) left reports) :
    reply.Accounts (levels + 1) (mark :: rest) outcome := by
  have hlevels : ∀ {more}, NumbersRead levels rest more →
      NumbersRead (levels + 1) (mark :: rest) (mark :: more) := by
    intro more hmore hle lexeme hmem
    rw [openings_cons_of_isMarkOf rest hmark] at hle
    rcases List.mem_cons.mp hmem with rfl | hlater
    · exact Lexeme.isReadable_of_isMarkOf hmark
    · exact hmore (by omega) lexeme hlater
  cases reply with
  | done value left reports =>
    obtain ⟨more, rfl, hmore, hvalue⟩ := haccount
    exact ⟨mark :: more, rfl, hlevels hmore, hvalue⟩
  | failed report left reports =>
    obtain ⟨more, rfl, hmore⟩ := haccount
    exact ⟨mark :: more, rfl, hlevels hmore⟩
  | stopped halt =>
    obtain ⟨error, hhalt, lexeme, hmem, hunreadable⟩ := haccount
    exact ⟨error, hhalt, lexeme, List.mem_cons_of_mem mark hmem, hunreadable⟩

/-- A value for which nothing is passed. -/
theorem pure {value : α} {outcome : Outcome α} (hvalue : outcome value [] unread []) :
    ((Pure.pure value : Parser α) unread).Accounts levels unread outcome :=
  ⟨[], rfl, fun _ _ hmem => absurd hmem List.not_mem_nil, hvalue⟩

/-- A failure for which nothing is passed. -/
theorem failed {report : Report} {reports : List Report} {outcome : Outcome α} :
    (Reply.failed report unread reports).Accounts levels unread outcome :=
  ⟨[], rfl, fun _ _ hmem => absurd hmem List.not_mem_nil⟩

/-- An account of a parser and of what follows it, where the latter may depend on how the parser
split the lexemes. These may be more than it began with. -/
theorem bind_of_split {whole : List Lexeme} {parser : Parser α} {next : α → Parser β}
    {first : Outcome α} {outcome : Outcome β}
    (hparser : (parser unread).Accounts levels whole first)
    (hnext : ∀ value passed rest reports, whole = passed ++ rest →
      first value passed rest reports →
      (next value rest).Accounts levels rest fun result more left later =>
        outcome result (passed ++ more) left (reports ++ later)) :
    ((parser >>= next) unread).Accounts levels whole outcome := by
  cases hreply : parser unread with
  | done value rest reports =>
    rw [hreply] at hparser
    obtain ⟨passed, rfl, hread, hvalue⟩ := hparser
    rw [Parser.bind_of_done next hreply]
    exact after (append hread (hnext value passed rest reports rfl hvalue))
  | failed report rest reports =>
    rw [hreply] at hparser
    rw [Parser.bind_of_failed next hreply]
    exact hparser
  | stopped halt =>
    rw [hreply] at hparser
    rw [Parser.bind_of_stopped next hreply]
    exact hparser

/-- An account of a parser and of what follows it. -/
theorem bind {whole : List Lexeme} {parser : Parser α} {next : α → Parser β} {first : Outcome α}
    {outcome : Outcome β} (hparser : (parser unread).Accounts levels whole first)
    (hnext : ∀ value passed rest reports, first value passed rest reports →
      (next value rest).Accounts levels rest fun result more left later =>
        outcome result (passed ++ more) left (reports ++ later)) :
    ((parser >>= next) unread).Accounts levels whole outcome :=
  bind_of_split hparser fun value passed rest reports _ => hnext value passed rest reports

section Steps

variable {outcome : Outcome β} {marks : List String}

/-- An account of both ways behind a mark that may be next. -/
theorem accept {next : Bool → Parser β}
    (hyes : ∀ lexeme rest, unread = lexeme :: rest → lexeme.isMarkOf marks = true →
      (next true rest).Accounts levels (lexeme :: rest) outcome)
    (hno : (next false unread).Accounts levels unread outcome) :
    ((Parser.accept marks >>= next) unread).Accounts levels unread outcome := by
  rw [Parser.accept_bind]
  split
  · next hmark =>
    obtain ⟨lexeme, rest, rfl, hlexeme⟩ := Parser.exists_cons_of_head_any hmark
    exact hyes lexeme rest rfl hlexeme
  · exact hno

/-- An account of what follows a mark. -/
theorem expectMark {mark : String} {expected : Expected} {next : Unit → Parser β}
    (hnext : ∀ lexeme rest, unread = lexeme :: rest → lexeme.isMarkOf [mark] = true →
      (next () rest).Accounts levels (lexeme :: rest) outcome) :
    ((Parser.expectMark mark expected >>= next) unread).Accounts levels unread outcome := by
  have hrun := Parser.expectMark_apply unread mark expected
  split at hrun
  · next hmark =>
    obtain ⟨lexeme, rest, rfl, hlexeme⟩ := Parser.exists_cons_of_head_any hmark
    rw [Parser.bind_of_silent next hrun]
    exact hnext lexeme rest rfl hlexeme
  · rw [Parser.bind_of_failed next hrun]
    exact failed

/-- An account of what follows a certain word. -/
theorem expectWord {word : String} {expected : Expected} {next : Unit → Parser β}
    (hnext : ∀ lexeme rest, unread = lexeme :: rest → lexeme.isWordOf [word] = true →
      (next () rest).Accounts levels rest fun value more left reports =>
        outcome value (lexeme :: more) left reports) :
    ((Parser.expectWord word expected >>= next) unread).Accounts levels unread outcome := by
  have hrun := Parser.expectWord_apply unread word expected
  split at hrun
  · next hword =>
    obtain ⟨lexeme, rest, rfl, hlexeme⟩ := Parser.exists_cons_of_head_any hword
    rw [Parser.bind_of_silent next hrun]
    exact cons (Lexeme.isReadable_of_isWord (Lexeme.isWord_of_isWordOf hlexeme))
      (hnext lexeme rest rfl hlexeme)
  · rw [Parser.bind_of_failed next hrun]
    exact failed

/-- An account of what follows an identifier. -/
theorem identifier {expected : Expected} {next : String → Parser β}
    (hnext : ∀ text rest, unread = ⟨.identifier, text⟩ :: rest →
      (next text rest).Accounts levels rest fun value more left reports =>
        outcome value (⟨.identifier, text⟩ :: more) left reports) :
    ((Parser.identifier expected >>= next) unread).Accounts levels unread outcome := by
  have hrun := Parser.identifier_apply unread expected
  split at hrun
  · next hkind =>
    obtain ⟨⟨kind, text⟩, rest, rfl, hlexeme⟩ := Parser.exists_cons_of_head_any hkind
    obtain rfl : kind = .identifier := by simpa using hlexeme
    rw [Parser.bind_of_silent next hrun]
    exact cons (Lexeme.isReadable_of_kind (by simp)) (hnext text rest rfl)
  · rw [Parser.bind_of_failed next hrun]
    exact failed

/-- An account of what follows a word. -/
theorem word {expected : Expected} {next : String → Parser β}
    (hnext : ∀ lexeme rest, unread = lexeme :: rest → lexeme.isWord = true →
      (next lexeme.text rest).Accounts levels rest fun value more left reports =>
        outcome value (lexeme :: more) left reports) :
    ((Parser.word expected >>= next) unread).Accounts levels unread outcome := by
  have hrun := Parser.word_apply unread expected
  split at hrun
  · next hword =>
    obtain ⟨lexeme, rest, rfl, hlexeme⟩ := Parser.exists_cons_of_head_any hword
    rw [Parser.bind_of_silent next hrun]
    exact cons (Lexeme.isReadable_of_isWord hlexeme) (hnext lexeme rest rfl hlexeme)
  · rw [Parser.bind_of_failed next hrun]
    exact failed

end Steps

end Reply.Accounts

/-- What a round has to tell about its turn: a last one reaches the goal, any other passes a lexeme
and brings the goal nearer. -/
def Outcome.ofRound {σ : Type} (goal : σ → Outcome σ) (state : σ) : Outcome (Turn σ) :=
  fun turn passed rest reports =>
    match turn with
    | .again next => passed ≠ [] ∧ ∀ last more left later, rest = more ++ left →
      goal next last more left later → goal state last (passed ++ more) left (reports ++ later)
    | .finish last => goal state last passed rest reports

section Rounds

variable {σ : Type} {round : σ → Parser (Turn σ)} {goal : σ → Outcome σ} {levels : Nat}

/-- Rounds as many as there are lexemes suffice, since each one that goes on passes a lexeme. -/
private theorem repeatFor_accounts
    (hround : ∀ state unread,
      (round state unread).Accounts levels unread (Outcome.ofRound goal state))
    (rounds : List Lexeme) (state : σ) {unread : List Lexeme}
    (hrounds : unread.length ≤ rounds.length) :
    (Parser.repeatFor round rounds state unread).Accounts levels unread (goal state) := by
  induction rounds generalizing state unread with
  | nil =>
    refine Reply.Accounts.bind_of_split (hround state unread) ?_
    rintro (next | last) passed rest reports hsplit hturn
    · have hempty : passed = [] := by
        have hlength := congrArg List.length hsplit
        rw [List.length_append] at hlength
        exact List.length_eq_zero_iff.mp (by rw [List.length_nil] at hrounds; omega)
      exact absurd hempty hturn.1
    · exact Reply.Accounts.pure (by simpa [Outcome.ofRound] using hturn)
  | cons lexeme rounds ih =>
    refine Reply.Accounts.bind_of_split (hround state unread) ?_
    rintro (next | last) passed rest reports hsplit hturn
    · obtain ⟨hpassed, hgoal⟩ := hturn
      have hshorter : rest.length ≤ rounds.length := by
        have hlength := congrArg List.length hsplit
        have hpositive := List.length_pos_iff.mpr hpassed
        rw [List.length_append] at hlength
        rw [List.length_cons] at hrounds
        omega
      exact (ih next hshorter).mono hgoal
    · exact Reply.Accounts.pure (by simpa [Outcome.ofRound] using hturn)

/-- An account of every round is one of the repetition. -/
theorem Reply.Accounts.repeating
    (hround : ∀ state unread,
      (round state unread).Accounts levels unread (Outcome.ofRound goal state))
    (state : σ) (unread : List Lexeme) :
    (Parser.repeating round state unread).Accounts levels unread (goal state) :=
  repeatFor_accounts hround unread state (Nat.le_refl _)

end Rounds

end BraceLang
