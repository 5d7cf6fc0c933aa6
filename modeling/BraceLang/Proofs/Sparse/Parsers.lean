import BraceLang.Proofs.Parsing.Completion
import BraceLang.Proofs.Parsing.Rounds
import BraceLang.Proofs.Sparse.Runs

/-!
# Parsers with sparse reports

A parser of an expression leaves the lexeme that is next behind its value alone, and reports no more
than once about the end. What follows it reports nothing at the end but a failure. So a failure is
one of two reports about the end, and one more is added by each block that is not closed there.
-/

namespace BraceLang

open BraceLang.Parser

variable {α β σ : Type} {levels more : Nat} {unread rest : List Lexeme}

/-- A reply that reports nothing but its failure. -/
def Reply.Terse (unread : List Lexeme) : Reply α → Prop
  | .done _ rest reports => rest <:+ unread ∧ reports = []
  | .failed report rest reports => Run unread rest [report] ∧ reports = []
  | .stopped _ => True

/-- A reply with sparse reports, where so many levels may be opened. -/
def Reply.Sparse (levels : Nat) (unread : List Lexeme) : Reply α → Prop
  | .done _ rest reports => SparseRun unread rest reports 0 1
  | .failed report rest reports => SparseRun unread rest (reports ++ [report]) 1 (levels + 2)
  | .stopped _ => True

namespace Reply

/-- A single report is sparse. -/
theorem Terse.sparse {reply : Reply α} (hreply : reply.Terse unread) :
    reply.Sparse levels unread := by
  cases reply with
  | done value rest reports =>
    obtain ⟨hsuffix, rfl⟩ := hreply
    exact .of_suffix hsuffix
  | failed report rest reports =>
    obtain ⟨hrun, rfl⟩ := hreply
    exact .of_report hrun (by omega)
  | stopped halt => trivial

/-- Where more levels may be opened there may be more reports. -/
theorem Sparse.mono {reply : Reply α} (hreply : reply.Sparse levels unread)
    (hmore : levels ≤ more) : reply.Sparse more unread := by
  cases reply with
  | done => exact hreply
  | failed => exact SparseRun.mono hreply (Nat.le_refl 1) (by omega)
  | stopped => trivial

/-- What follows a reply without a report. -/
theorem Terse.bind {parser : Parser α} {next : α → Parser β}
    (hparser : (parser unread).Terse unread)
    (hnext : ∀ value rest, rest <:+ unread → (next value rest).Terse rest) :
    ((parser >>= next) unread).Terse unread := by
  cases hreply : parser unread with
  | done value rest reports =>
    rw [hreply] at hparser
    obtain ⟨hsuffix, rfl⟩ := hparser
    have hlater := hnext value rest hsuffix
    rw [bind_of_silent next hreply]
    cases hresult : next value rest with
    | done result last reports =>
      rw [hresult] at hlater
      exact ⟨hlater.1.trans hsuffix, hlater.2⟩
    | failed report last reports =>
      rw [hresult] at hlater
      exact ⟨(Run.of_suffix hsuffix).append hlater.1, hlater.2⟩
    | stopped halt => trivial
  | failed report rest reports =>
    rw [hreply] at hparser
    rw [bind_of_failed next hreply]
    exact hparser
  | stopped halt =>
    rw [bind_of_stopped next hreply]
    trivial

/-- A sparse reply behind a sparse run. At the end one of them reports nothing but a failure. -/
theorem Sparse.after {reply : Reply α} {earlier : List Report}
    (hfirst : SparseRun unread rest earlier 0 1) (hreply : reply.Sparse levels rest)
    (hend : rest = [] → earlier = [] ∨ reply.Terse []) :
    (reply.after earlier).Sparse levels unread := by
  have hearlier : reportsAt 0 earlier ≤ 1 := hfirst.ending
  cases reply with
  | done value last later =>
    refine SparseRun.append hfirst hreply fun hnil => ?_
    rcases hend hnil with rfl | ⟨-, rfl⟩
    · rw [reportsAt_nil, Nat.zero_add]
      exact SparseRun.ending hreply
    · exact hearlier
  | failed report last later =>
    change SparseRun unread last (earlier ++ later ++ [report]) 1 (levels + 2)
    rw [List.append_assoc]
    refine SparseRun.append hfirst hreply fun hnil => ?_
    rcases hend hnil with rfl | ⟨-, rfl⟩
    · rw [reportsAt_nil, Nat.zero_add]
      exact SparseRun.ending hreply
    · have hone := reportsAt_singleton_le 0 report
      rw [List.nil_append]
      omega
  | stopped halt => trivial

/-- What follows a sparse reply. -/
theorem Sparse.bind {parser : Parser α} {next : α → Parser β}
    (hparser : (parser unread).Sparse levels unread)
    (hnext : ∀ value rest, (next value rest).Sparse levels rest)
    (hend : (parser unread).Terse unread ∨ ∀ value, (next value []).Terse []) :
    ((parser >>= next) unread).Sparse levels unread := by
  cases hreply : parser unread with
  | done value rest earlier =>
    rw [hreply] at hparser hend
    rw [bind_of_done next hreply]
    refine Sparse.after hparser (hnext value rest) ?_
    rintro rfl
    exact hend.imp And.right fun hclose => hclose value
  | failed report rest reports =>
    rw [hreply] at hparser
    rw [bind_of_failed next hreply]
    exact hparser
  | stopped halt =>
    rw [bind_of_stopped next hreply]
    trivial

end Reply

namespace Parser

/-- A parser that reports nothing but its failure. -/
def Terse (parser : Parser α) : Prop := ∀ unread, (parser unread).Terse unread

/-- A parser that reports nothing but its failure at the end. -/
def EndsTersely (parser : Parser α) : Prop := (parser []).Terse []

/-- A parser whose reports are sparse, where so many levels may be opened. -/
def Sparse (levels : Nat) (parser : Parser α) : Prop :=
  ∀ unread, (parser unread).Sparse levels unread

variable {parser : Parser α} {next : α → Parser β} {question : Parser Bool} {yes no : Parser α}

namespace Terse

/-- Handing on a value reports nothing. -/
theorem pure (value : α) : (Pure.pure value : Parser α).Terse :=
  fun unread => ⟨List.suffix_refl unread, rfl⟩

/-- A parser that reports nothing but its failure has sparse reports. -/
theorem sparse (hparser : parser.Terse) : parser.Sparse levels :=
  fun unread => (hparser unread).sparse

/-- Nothing is reported in front of what follows. -/
theorem bind (hparser : parser.Terse) (hnext : ∀ value, (next value).Sparse levels) :
    (parser >>= next).Sparse levels :=
  fun unread => .bind (hparser unread).sparse (fun value rest => hnext value rest)
    (.inl (hparser unread))

/-- A question without reports leaves the answer what it may report. -/
theorem either (hquestion : question.Terse) (hyes : yes.Sparse levels) (hno : no.Sparse levels) :
    (question >>= fun answer => if answer = true then yes else no).Sparse levels := by
  refine hquestion.bind fun answer => ?_
  split
  · exact hyes
  · exact hno

/-- Nothing is reported in all. -/
theorem follow (hparser : parser.Terse) (hnext : ∀ value, (next value).Terse) :
    (parser >>= next).Terse :=
  fun unread => .bind (hparser unread) fun value rest _ => hnext value rest

/-- Nothing is reported by either answer. -/
theorem choose (hquestion : question.Terse) (hyes : yes.Terse) (hno : no.Terse) :
    (question >>= fun answer => if answer = true then yes else no).Terse := by
  refine hquestion.follow fun answer => ?_
  split
  · exact hyes
  · exact hno

end Terse

namespace EndsTersely

/-- What follows at the end is at the end as well. -/
theorem bind (hparser : parser.EndsTersely) (hnext : ∀ value, (next value).EndsTersely) :
    (parser >>= next).EndsTersely := by
  refine Reply.Terse.bind hparser fun value rest hsuffix => ?_
  obtain rfl := List.suffix_nil.mp hsuffix
  exact hnext value

/-- Handing on a value reports nothing at the end. -/
theorem pure (value : α) : (Pure.pure value : Parser α).EndsTersely := Terse.pure value []

end EndsTersely

namespace Sparse

/-- What follows reports nothing but its failure at the end. -/
theorem bind (hparser : parser.Sparse levels) (hnext : ∀ value, (next value).Sparse levels)
    (hend : ∀ value, (next value).EndsTersely) : (parser >>= next).Sparse levels :=
  fun unread => .bind (hparser unread) (fun value rest => hnext value rest) (.inr hend)

/-- A value that is made into another one. -/
theorem returning {make : α → β} (hparser : parser.Sparse levels) :
    (parser >>= fun value => Pure.pure (make value)).Sparse levels :=
  hparser.bind (fun _ => (Terse.pure _).sparse) fun _ => .pure _

/-- More levels may be opened. -/
theorem mono (hparser : parser.Sparse levels) (hmore : levels ≤ more) : parser.Sparse more :=
  fun unread => (hparser unread).mono hmore

/-- Where nothing is inside, the complaint is the only report. -/
theorem nested {inside : Option Layer} {parser : Layer → Parser α}
    (hparser : ∀ layer ∈ inside, (parser layer).Sparse levels) :
    (BraceLang.nested inside parser).Sparse levels := by
  cases inside with
  | none =>
    exact fun unread => Reply.Terse.sparse
      ⟨.complain ⟨rfl, rfl⟩ (.of_suffix (behindGroup_suffix unread)), rfl⟩
  | some layer => exact hparser layer rfl

end Sparse

section Primitives

/-- Looking at the next lexeme reports nothing. -/
theorem peek_terse : peek.Terse := fun unread => ⟨List.suffix_refl unread, rfl⟩

/-- Nor does looking at the one behind it. -/
theorem peekSecond_terse : peekSecond.Terse := fun unread => ⟨List.suffix_refl unread, rfl⟩

/-- Nor does advancing. -/
theorem advance_terse : advance.Terse := fun unread => ⟨List.tail_suffix unread, rfl⟩

/-- Nor does asking for a mark. -/
theorem nextIsMark_terse (marks : List String) : (nextIsMark marks).Terse :=
  fun unread => ⟨List.suffix_refl unread, rfl⟩

/-- Nor does asking for a word. -/
theorem nextIsWord_terse (words : List String) : (nextIsWord words).Terse :=
  fun unread => ⟨List.suffix_refl unread, rfl⟩

/-- Nor does asking for the end. -/
theorem atEnd_terse : atEnd.Terse := fun unread => ⟨List.suffix_refl unread, rfl⟩

/-- Nor does asking for an operator. -/
theorem nextOperator_terse (precedence : Nat) : (nextOperator precedence).Terse :=
  fun unread => ⟨List.suffix_refl unread, rfl⟩

/-- Nor does asking whether type arguments begin. -/
theorem nextAreTypeArguments_terse : nextAreTypeArguments.Terse :=
  fun unread => ⟨List.suffix_refl unread, rfl⟩

/-- Nor does asking whether a function value begins. -/
theorem nextIsFunctionValue_terse : nextIsFunctionValue.Terse :=
  fun unread => ⟨List.suffix_refl unread, rfl⟩

/-- A rejection is a failure. -/
theorem reject_terse (expected : Expected) : (reject expected : Parser α).Terse :=
  fun unread => ⟨run_unexpected expected (List.suffix_refl unread), rfl⟩

/-- So is one that passes the lexeme by. -/
theorem rejectPassing_terse (expected : Expected) : (rejectPassing expected : Parser α).Terse :=
  fun unread => ⟨run_unexpected expected (List.tail_suffix unread), rfl⟩

/-- A mark that may be there is never reported. -/
theorem accept_terse (marks : List String) : (accept marks).Terse :=
  (nextIsMark_terse marks).choose (advance_terse.follow fun _ => .pure true) (.pure false)

/-- A mark that is missing is reported as the failure. -/
theorem expectMark_terse (mark : String) (expected : Expected) :
    (expectMark mark expected).Terse :=
  (nextIsMark_terse [mark]).choose advance_terse (reject_terse expected)

/-- So is a keyword. -/
theorem expectWord_terse (word : String) (expected : Expected) :
    (expectWord word expected).Terse :=
  (nextIsWord_terse [word]).choose advance_terse (reject_terse expected)

/-- So is an identifier. -/
theorem identifier_terse (expected : Expected) : (identifier expected).Terse := by
  intro unread
  rw [identifier_apply]
  split
  · exact ⟨List.tail_suffix unread, rfl⟩
  · exact ⟨run_unexpected expected (List.suffix_refl unread), rfl⟩

/-- So is a word. -/
theorem word_terse (expected : Expected) : (word expected).Terse := by
  intro unread
  rw [word_apply]
  split
  · exact ⟨List.tail_suffix unread, rfl⟩
  · exact ⟨run_unexpected expected (List.suffix_refl unread), rfl⟩

/-- A numeral is not reported at all. -/
theorem numeral_terse (text : String) : (numeral text).Terse := by
  intro unread
  unfold numeral
  cases Numeral.read text with
  | ok value => exact ⟨List.tail_suffix unread, rfl⟩
  | error error => trivial

/-- The lexeme that begins no expression is passed, so it is not next any more. -/
theorem noExpression_sparse : noExpression.Sparse levels := by
  intro unread
  have hreport :
      SparseRun unread unread [⟨unread.length, .unexpected unread.head? .expression⟩] 1 1 :=
    .of_report (run_unexpected .expression (List.suffix_refl unread)) (Nat.le_refl 1)
  cases unread with
  | nil => exact { hreport with next := fun hnil => absurd rfl hnil }
  | cons lexeme rest => exact hreport.passing.mono (Nat.le_refl 0) (Nat.zero_le 1)

/-- Nothing follows a mark that is missing at the end. -/
theorem EndsTersely.expectMark {mark : String} {expected : Expected} {next : Unit → Parser β} :
    (Parser.expectMark mark expected >>= next).EndsTersely :=
  ⟨run_unexpected expected (List.suffix_refl []), rfl⟩

/-- A value that is made into another one behind what closes it. -/
theorem Sparse.closed {mark : String} {expected : Expected} {make : α → β}
    (hparser : parser.Sparse levels) :
    (parser >>= fun value =>
      expectMark mark expected >>= fun _ => pure (make value)).Sparse levels :=
  hparser.bind (fun _ => (expectMark_terse mark expected).bind fun _ => (Terse.pure _).sparse)
    fun _ => .expectMark

end Primitives

section Repetitions

variable {round : σ → Parser (Turn σ)}

/-- A repetition that finishes at the end ends there. -/
theorem EndsTersely.repeating (hend : ∀ state, ∃ last, round state [] = .done (.finish last) [] [])
    (state : σ) : (Parser.repeating round state).EndsTersely := by
  obtain ⟨last, hlast⟩ := hend state
  unfold EndsTersely Parser.repeating
  rw [repeatFor_of_finish [] hlast]
  exact ⟨List.suffix_refl [], rfl⟩

/-- A bounded repetition has sparse reports, since a round at the end is its last. -/
private theorem repeatFor_sparse (hround : ∀ state, (round state).Sparse levels)
    (hend : ∀ state, ∃ last, round state [] = .done (.finish last) [] []) (rounds : List Lexeme)
    (state : σ) : (repeatFor round rounds state).Sparse levels := by
  have hpure (last : σ) : (pure last : Parser σ).Sparse levels := (Terse.pure last).sparse
  induction rounds generalizing state with
  | nil =>
    refine (hround state).bind ?_ ?_
    · rintro (next | last)
      · exact fun _ => trivial
      · exact hpure last
    · rintro (next | last)
      · trivial
      · exact .pure last
  | cons lexeme rounds ih =>
    refine (hround state).bind ?_ ?_
    · rintro (next | last)
      · exact ih next
      · exact hpure last
    · rintro (next | last)
      · obtain ⟨last, hlast⟩ := hend next
        change (repeatFor round rounds next []).Terse []
        rw [repeatFor_of_finish rounds hlast]
        exact ⟨List.suffix_refl [], rfl⟩
      · exact .pure last

/-- A repetition of rounds with sparse reports, of which one at the end is the last. -/
theorem Sparse.repeating (hround : ∀ state, (round state).Sparse levels)
    (hend : ∀ state, ∃ last, round state [] = .done (.finish last) [] []) (state : σ) :
    (Parser.repeating round state).Sparse levels :=
  fun unread => repeatFor_sparse hround hend unread state unread

end Repetitions

section Lists

variable {item : Parser α}

/-- A list between separators has sparse reports. -/
theorem Sparse.separated (hitem : item.Sparse levels) : (Parser.separated item).Sparse levels := by
  have hend (items : List α) : ∃ last, nextItem item items [] = .done (.finish last) [] [] :=
    ⟨items, rfl⟩
  refine hitem.bind (fun first => .returning (.repeating (fun items => ?_) hend _)) fun first =>
    .bind (.repeating hend _) fun items => .pure _
  exact (accept_terse _).either hitem.returning (Terse.pure _).sparse

/-- So does one up to its closing mark. -/
theorem Sparse.listed (hitem : item.Sparse levels) (closing : String) :
    (Parser.listed item closing).Sparse levels := by
  have hend (items : List α) :
      ∃ last, nextListed item closing items [] = .done (.finish last) [] [] := ⟨items, rfl⟩
  refine (nextIsMark_terse _).either (Terse.pure _).sparse ?_
  refine hitem.bind (fun first => .returning (.repeating (fun items => ?_) hend _)) fun first =>
    .bind (.repeating hend _) fun items => .pure _
  refine (accept_terse _).either ?_ (Terse.pure _).sparse
  exact (nextIsMark_terse _).either (Terse.pure _).sparse hitem.returning

/-- So does one whose items are told what stands before them. -/
theorem Sparse.upTo {item : List α → Parser α} (hitem : ∀ items, (item items).Sparse levels)
    (separators : List String) (closing : String) :
    (Parser.upTo item separators closing).Sparse levels := by
  refine .returning (.repeating (fun items => ?_) (fun items => ⟨items, rfl⟩) _)
  refine (nextIsMark_terse _).either (Terse.pure _).sparse ?_
  refine atEnd_terse.either (Terse.pure _).sparse ?_
  refine (hitem items).bind (fun next => ?_) fun next => ?_
  · exact (accept_terse _).either (Terse.pure _).sparse (Terse.pure _).sparse
  · exact (accept_terse _).choose (.pure _) (.pure _) []

end Lists

section Statements

variable {statement : Parser Statement} {closing : List String} {items last : List Statement}
  {reports : List Report}

/-- A statement that is recovered passes a lexeme, but it may have reported about the one that is
next. -/
theorem Sparse.passing_recovered {item : Statement} (hstatement : statement.Sparse levels)
    (hunread : unread ≠ [])
    (hitem : passing (recovered statement) unread = .done item rest reports) :
    SparseRun unread rest reports 1 (levels + 2) ∧ rest.length < unread.length := by
  have hrecovered {item : Statement} {middle : List Lexeme} {reports : List Report}
      (hreply : recovered statement unread = .done item middle reports) :
      SparseRun unread middle reports 1 (levels + 2) := by
    have hsparse := hstatement unread
    unfold recovered at hreply
    cases hrun : statement unread with
    | done value rest earlier =>
      rw [hrun] at hreply hsparse
      obtain ⟨rfl, rfl, rfl⟩ := Reply.done.inj hreply
      exact SparseRun.mono hsparse (Nat.zero_le 1) (by omega)
    | failed report rest earlier =>
      rw [hrun] at hreply hsparse
      obtain ⟨rfl, rfl, rfl⟩ := Reply.done.inj hreply
      exact hsparse
    | stopped halt =>
      rw [hrun] at hreply
      cases hreply
  unfold passing at hitem
  cases hreply : recovered statement unread with
  | done value middle earlier =>
    have hsparse := hrecovered hreply
    rw [hreply] at hitem
    obtain ⟨rfl, rfl, rfl⟩ := Reply.done.inj hitem
    split
    · next hshorter => exact ⟨hsparse, hshorter⟩
    · next hlonger =>
      -- what is next has been reported about, but it is passed now
      obtain rfl : middle = unread :=
        hsparse.run.suffix.eq_of_length_le (Nat.le_of_not_lt hlonger)
      obtain ⟨lexeme, rest, rfl⟩ := List.exists_cons_of_ne_nil hunread
      exact ⟨hsparse.passing.mono (Nat.zero_le 1) (Nat.zero_le _), Nat.lt_succ_self _⟩
  | failed =>
    rw [hreply] at hitem
    cases hitem
  | stopped =>
    rw [hreply] at hitem
    cases hitem

/-- The statements of a list are read with sparse reports, up to a closing mark or to the end. Each
of them passes a lexeme. -/
theorem Sparse.rounds (hstatement : statement.Sparse levels)
    (hrounds : Rounds (nextStatement statement closing) items unread last rest reports) :
    SparseRun unread rest reports 1 (levels + 2) ∧
      (reports = [] ∧ rest = unread ∨ rest.length < unread.length) ∧
      (rest.head?.isNone = true ∨ rest.head?.any (·.isMarkOf closing) = true) := by
  induction hrounds with
  | @finish items last unread rest reports hround =>
    obtain ⟨rfl, hends, -⟩ := nextStatement_finish hround
    rw [nextStatement_apply, if_pos hends] at hround
    obtain ⟨-, rfl, rfl⟩ := Reply.done.inj hround
    exact ⟨.of_suffix (List.suffix_refl _), .inl ⟨rfl, rfl⟩, hends⟩
  | @again items next last unread middle rest earlier later hround hrest ih =>
    obtain ⟨item, -, hitem, -⟩ := nextStatement_again hround
    obtain ⟨hlater, hmoves, hends⟩ := ih
    have hunread : unread ≠ [] := by
      rintro rfl
      cases hround
    obtain ⟨hfirst, hpassed⟩ := hstatement.passing_recovered hunread hitem
    have hle := hlater.run.suffix.length_le
    exact ⟨hfirst.append_moving hpassed hlater hmoves, .inr (by omega), hends⟩

/-- The statements of a list have sparse reports together. -/
theorem Sparse.statements {program : List Statement} (hstatement : statement.Sparse levels)
    (hdone : statements statement closing unread = .done program rest reports) :
    SparseRun unread rest reports 1 (levels + 2) ∧
      (rest.head?.isNone = true ∨ rest.head?.any (·.isMarkOf closing) = true) := by
  obtain ⟨items, middle, earlier, later, hitems, hlast, rfl⟩ := exists_of_bind_eq_done hdone
  obtain ⟨rfl, rfl, rfl⟩ := Reply.done.inj hlast
  obtain ⟨hsparse, -, hends⟩ := hstatement.rounds (.of_repeating hitems)
  rw [List.append_nil]
  exact ⟨hsparse, hends⟩

end Statements

section Blocks

variable {statement : Parser Statement}

/-- The closing brace behind the statements of a block. If it is missing nothing is unread, and that
is reported once more. -/
private theorem closing_sparse {fewer : Nat} {body : List Statement} {reports : List Report}
    (hbody : SparseRun unread rest reports 1 (fewer + 2))
    (hends : rest.head?.isNone = true ∨ rest.head?.any (·.isMarkOf ["\x7d"]) = true) :
    (((expectMark "\x7d" .blockClosing >>= fun _ => pure body : Parser (List Statement)) rest).after
      reports).Sparse (fewer + 1) unread := by
  cases rest with
  | nil =>
    change SparseRun unread [] (reports ++ [] ++ [_]) 1 (fewer + 1 + 2)
    rw [List.append_nil]
    exact hbody.complain_end ⟨rfl, rfl⟩
  | cons lexeme rest =>
    have hbrace : (lexeme :: rest).head?.any (·.isMarkOf ["\x7d"]) = true :=
      hends.resolve_left Bool.false_ne_true
    have hpass : expectMark "\x7d" .blockClosing (lexeme :: rest) = .done () rest [] := by
      rw [expectMark_apply, if_pos hbrace]
      rfl
    rw [bind_of_silent _ hpass]
    change SparseRun unread rest (reports ++ []) 0 1
    rw [List.append_nil]
    exact hbody.passing.mono (Nat.le_refl 0) (Nat.zero_le 1)

/-- The statements of a block and the brace behind them. -/
private theorem body_sparse {fewer : Nat} (hstatement : statement.Sparse fewer) :
    (statements statement ["\x7d"] >>= fun body =>
      expectMark "\x7d" .blockClosing >>= fun _ => pure body).Sparse (fewer + 1) := by
  intro unread
  cases hstatements : statements statement ["\x7d"] unread with
  | done body rest reports =>
    obtain ⟨hbody, hends⟩ := hstatement.statements hstatements
    rw [bind_of_done _ hstatements]
    exact closing_sparse hbody hends
  | failed report rest reports =>
    exact absurd hstatements (Reply.Recovers.statements _ _ unread).ne_failed
  | stopped halt =>
    rw [bind_of_stopped _ hstatements]
    trivial

/-- What is inside a block may be read with one level less. A block that is not closed at the end
reports that once more. -/
theorem Sparse.block {inside : Option Layer}
    (hinside : ∀ layer ∈ inside, ∃ fewer, levels = fewer + 1 ∧ layer.statement.Sparse fewer) :
    (Parser.block inside).Sparse levels := by
  unfold Parser.block
  cases inside with
  | none =>
    intro unread
    rw [bind_of_failed _ (rfl : BraceLang.nested none _ unread = .failed _ _ _)]
    exact Reply.Terse.sparse ⟨.complain ⟨rfl, rfl⟩ (.of_suffix (behindGroup_suffix unread)), rfl⟩
  | some layer =>
    obtain ⟨fewer, rfl, hstatement⟩ := hinside layer rfl
    change ((expectMark "\x7b" .blockOpening >>= fun _ =>
        Parser.statements layer.statement ["\x7d"]) >>= _).Sparse (fewer + 1)
    rw [bind_assoc]
    exact (expectMark_terse _ _).bind fun _ => body_sparse hstatement

/-- No block begins at the end. -/
theorem EndsTersely.block (inside : Option Layer) : (Parser.block inside).EndsTersely := by
  cases inside with
  | none => exact ⟨.complain ⟨rfl, rfl⟩ .none, rfl⟩
  | some layer => exact ⟨run_unexpected _ (List.suffix_refl []), rfl⟩

end Blocks

end Parser

end BraceLang
