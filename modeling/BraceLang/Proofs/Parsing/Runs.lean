import BraceLang.Proofs.Parsing.Steps

/-!
# Runs

Whatever a parser reads, it goes on by single steps: it passes the next lexeme, or it complains
about it. A failure is a complaint as well. What holds of every row of such steps therefore holds of
every parser.
-/

namespace BraceLang

variable {α β σ : Type}

/-- What a complaint says that was found. -/
def Complaint.found : Complaint → Option Lexeme
  | .unexpected found _ => found
  | .nestingTooDeep found => found

/-- A report about the next lexeme, or about the end if nothing is unread. -/
structure Report.IsAbout (report : Report) (unread : List Lexeme) : Prop where
  left : report.left = unread.length
  found : report.complaint.found = unread.head?

/-- The steps from what is unread before to what is unread behind, with the reports on the way. -/
inductive Run : List Lexeme → List Lexeme → List Report → Prop
  | none {unread : List Lexeme} : Run unread unread []
  | pass {lexeme : Lexeme} {unread rest : List Lexeme} {reports : List Report} :
    Run unread rest reports → Run (lexeme :: unread) rest reports
  | complain {unread rest : List Lexeme} {report : Report} {reports : List Report} :
    report.IsAbout unread → Run unread rest reports → Run unread rest (report :: reports)

namespace Run

variable {unread rest last : List Lexeme} {report : Report} {earlier later reports : List Report}

/-- One run behind another. -/
theorem append (hfirst : Run unread rest earlier) (hsecond : Run rest last later) :
    Run unread last (earlier ++ later) := by
  induction hfirst with
  | none => exact hsecond
  | pass _ ih => exact .pass (ih hsecond)
  | complain habout _ ih => exact .complain habout (ih hsecond)

/-- Passing lexemes without a complaint. -/
theorem of_suffix (hsuffix : rest <:+ unread) : Run unread rest [] := by
  induction unread with
  | nil =>
    obtain rfl := List.suffix_nil.mp hsuffix
    exact .none
  | cons lexeme unread ih =>
    rcases List.suffix_cons_iff.mp hsuffix with rfl | hless
    · exact .none
    · exact .pass (ih hless)

/-- A run never goes back. -/
theorem suffix (hrun : Run unread rest reports) : rest <:+ unread := by
  induction hrun with
  | none => exact List.suffix_refl _
  | pass _ ih => exact ih.trans (List.suffix_cons _ _)
  | complain _ _ ih => exact ih

/-- Every complaint is about a lexeme that the run comes to. -/
theorem isAbout (hrun : Run unread rest reports) (hreport : report ∈ reports) :
    ∃ reached, reached <:+ unread ∧ report.IsAbout reached := by
  induction hrun with
  | none => exact absurd hreport List.not_mem_nil
  | pass _ ih =>
    obtain ⟨reached, hreached, habout⟩ := ih hreport
    exact ⟨reached, hreached.trans (List.suffix_cons _ _), habout⟩
  | complain habout _ ih =>
    rcases List.mem_cons.mp hreport with rfl | hlater
    · exact ⟨_, List.suffix_refl _, habout⟩
    · exact ih hlater

/-- Every complaint is made before the run ends. -/
theorem length_le_left (hrun : Run unread rest reports) (hreport : report ∈ reports) :
    rest.length ≤ report.left := by
  induction hrun with
  | none => exact absurd hreport List.not_mem_nil
  | pass _ ih => exact ih hreport
  | complain habout hlater ih =>
    rcases List.mem_cons.mp hreport with rfl | hmem
    · exact habout.left ▸ hlater.suffix.length_le
    · exact ih hmem

end Run

/-- A reply comes about by steps from what was unread before. A failure is the last complaint, but
it may be that lexemes are passed behind it. -/
def Reply.Runs (unread : List Lexeme) : Reply α → Prop
  | .done _ rest reports => Run unread rest reports
  | .failed report rest reports => Run unread rest (reports ++ [report])
  | .stopped _ => True

/-- A reply behind a run is a run of the whole. -/
theorem Reply.Runs.after {unread rest : List Lexeme} {earlier : List Report} {reply : Reply α}
    (hfirst : Run unread rest earlier) (hreply : reply.Runs rest) :
    (reply.after earlier).Runs unread := by
  cases reply with
  | done value last later => exact hfirst.append hreply
  | failed report last later =>
    change Run unread last (earlier ++ later ++ [report])
    rw [List.append_assoc]
    exact hfirst.append hreply
  | stopped halt => trivial

namespace Parser

/-- A parser whose replies come about by steps. -/
def Runs (parser : Parser α) : Prop := ∀ unread, (parser unread).Runs unread

namespace Runs

variable {parser : Parser α} {next : α → Parser β}

/-- What a parser leaves unread is what was there last. -/
theorem suffix (hruns : parser.Runs) {value : α} {unread rest : List Lexeme}
    {reports : List Report} (hdone : parser unread = .done value rest reports) :
    rest <:+ unread := by
  have hrun := hruns unread
  rw [hdone] at hrun
  exact Run.suffix hrun

/-- Handing on a value reads nothing. -/
theorem pure (value : α) : (Pure.pure value : Parser α).Runs := fun _ => .none

/-- Steps behind steps. -/
theorem bind (hparser : parser.Runs) (hnext : ∀ value, (next value).Runs) :
    (parser >>= next).Runs := by
  intro unread
  have hreply := hparser unread
  cases hrun : parser unread with
  | done value rest earlier =>
    rw [hrun] at hreply
    rw [bind_of_done next hrun]
    exact .after hreply (hnext value rest)
  | failed report rest reports =>
    rw [hrun] at hreply
    rw [bind_of_failed next hrun]
    exact hreply
  | stopped halt =>
    rw [bind_of_stopped next hrun]
    trivial

/-- Steps for either answer to a question. -/
theorem either {question : Parser Bool} {yes no : Parser α} (hquestion : question.Runs)
    (hyes : yes.Runs) (hno : no.Runs) :
    (question >>= fun answer => if answer = true then yes else no).Runs := by
  refine hquestion.bind fun answer => ?_
  split
  · exact hyes
  · exact hno

end Runs

/-- Looking at the next token reads nothing. -/
theorem peek_runs : peek.Runs := fun _ => .none

/-- Nor does looking at the one behind it. -/
theorem peekSecond_runs : peekSecond.Runs := fun _ => .none

/-- Nor does asking for a mark. -/
theorem nextIsMark_runs (marks : List String) : (nextIsMark marks).Runs := fun _ => .none

/-- Nor does asking for a word. -/
theorem nextIsWord_runs (words : List String) : (nextIsWord words).Runs := fun _ => .none

/-- Nor does asking for the end. -/
theorem atEnd_runs : atEnd.Runs := fun _ => .none

/-- Nor does asking for an operator. -/
theorem nextOperator_runs (precedence : Nat) : (nextOperator precedence).Runs := fun _ => .none

/-- Nor does asking whether type arguments begin. -/
theorem nextAreTypeArguments_runs : nextAreTypeArguments.Runs := fun _ => .none

/-- Nor does asking whether a function value begins. -/
theorem nextIsFunctionValue_runs : nextIsFunctionValue.Runs := fun _ => .none

/-- A complaint about the next lexeme, which is passed if that is what the parser does. -/
theorem run_unexpected {unread rest : List Lexeme} (expected : Expected)
    (hrest : rest <:+ unread) :
    Run unread rest [⟨unread.length, .unexpected unread.head? expected⟩] :=
  .complain ⟨rfl, rfl⟩ (.of_suffix hrest)

/-- Advancing reads the token at hand. -/
theorem advance_runs : advance.Runs := fun unread => .of_suffix (List.tail_suffix unread)

/-- A complaint is placed at the token at hand. -/
theorem complain_runs (expected : Expected) : (complain expected).Runs :=
  fun unread => run_unexpected expected (List.suffix_refl unread)

/-- A rejection reports and goes no further. -/
theorem reject_runs (expected : Expected) : (reject expected : Parser α).Runs :=
  fun unread => run_unexpected expected (List.suffix_refl unread)

/-- So does one that passes the token by. -/
theorem rejectPassing_runs (expected : Expected) : (rejectPassing expected : Parser α).Runs :=
  fun unread => run_unexpected expected (List.tail_suffix unread)

/-- A mark that may be there is read when it is. -/
theorem accept_runs (marks : List String) : (accept marks).Runs :=
  (nextIsMark_runs marks).either (advance_runs.bind fun _ => .pure true) (.pure false)

/-- A mark that has to be there is read or reported. -/
theorem expectMark_runs (mark : String) (expected : Expected) : (expectMark mark expected).Runs :=
  (nextIsMark_runs [mark]).either advance_runs (reject_runs expected)

/-- So is a word. -/
theorem expectWord_runs (word : String) (expected : Expected) : (expectWord word expected).Runs :=
  (nextIsWord_runs [word]).either advance_runs (reject_runs expected)

/-- So is an identifier. -/
theorem identifier_runs (expected : Expected) : (identifier expected).Runs := by
  intro unread
  rw [identifier_apply]
  split
  · exact .of_suffix (List.tail_suffix unread)
  · exact run_unexpected expected (List.suffix_refl unread)

/-- A numeral is read, or the parser stops where it cannot be converted. -/
theorem numeral_runs (text : String) : (numeral text).Runs := by
  intro unread
  unfold numeral
  cases Numeral.read text with
  | ok value => exact Run.of_suffix (List.tail_suffix unread)
  | error error => trivial

namespace Runs

/-- Where nothing is inside, a group is passed behind the complaint about its first lexeme. -/
theorem nested {inside : Option Layer} {parser : Layer → Parser α}
    (hparser : ∀ layer ∈ inside, (parser layer).Runs) : (BraceLang.nested inside parser).Runs := by
  cases inside with
  | none => exact fun unread => .complain ⟨rfl, rfl⟩ (.of_suffix (behindGroup_suffix unread))
  | some layer => exact hparser layer rfl

/-- A failure that is put in the place of a statement was the last complaint. -/
theorem recovered {parser : Parser Statement} (hparser : parser.Runs) :
    (Parser.recovered parser).Runs := by
  intro unread
  have hreply := hparser unread
  unfold Parser.recovered
  cases hrun : parser unread with
  | done | failed =>
    rw [hrun] at hreply
    exact hreply
  | stopped => trivial

/-- Passing a lexeme behind everything else. -/
theorem passing {parser : Parser α} (hparser : parser.Runs) : (Parser.passing parser).Runs := by
  intro unread
  have hreply := hparser unread
  unfold Parser.passing
  cases hrun : parser unread with
  | done value rest reports =>
    rw [hrun] at hreply
    dsimp only
    split
    · exact hreply
    · have hpass : Run rest rest.tail [] := .of_suffix (List.tail_suffix rest)
      have hboth := Run.append hreply hpass
      rwa [List.append_nil] at hboth
  | failed report rest reports =>
    rw [hrun] at hreply
    exact hreply
  | stopped => trivial

section Rounds

variable {round : σ → Parser (Turn σ)}

/-- A bounded repetition runs when each of its rounds does. -/
private theorem repeatFor_runs (hround : ∀ state, (round state).Runs) (rounds : List Lexeme)
    (state : σ) : (repeatFor round rounds state).Runs := by
  induction rounds generalizing state with
  | nil =>
    refine (hround state).bind ?_
    rintro (next | last)
    · exact fun _ => trivial
    · exact .pure last
  | cons lexeme rounds ih =>
    refine (hround state).bind ?_
    rintro (next | last)
    · exact ih next
    · exact .pure last

/-- A repetition of rounds that go by steps. -/
theorem repeating (hround : ∀ state, (round state).Runs) (state : σ) :
    (Parser.repeating round state).Runs :=
  fun unread => repeatFor_runs hround unread state unread

end Rounds

section Lists

variable {item : Parser α}

end Lists

end Runs

end Parser

end BraceLang
