import BraceLang.Proofs.Parsing.Runs

/-!
# Sparse reports

The reports of a run are about lexemes in the order in which they are passed. A run is sparse if no
more than two of them are about the same lexeme, no more than one about the first, and few about the
lexeme that is next behind it and about the end of the input. The places where one run ends and
another one begins are the only ones that both may report about, so runs are sparse together if the
first one leaves the lexeme that is next behind it alone, or the second one moves on.
-/

namespace BraceLang

/-- How many of some reports are about the place where so many lexemes are unread. -/
def reportsAt (left : Nat) (reports : List Report) : Nat :=
  reports.countP (·.left == left)

section Places

variable {unread rest : List Lexeme} {reports : List Report} {left : Nat}

/-- No report is about any place. -/
@[simp] theorem reportsAt_nil (left : Nat) : reportsAt left [] = 0 := rfl

/-- The reports of two runs are counted together. -/
@[simp] theorem reportsAt_append (left : Nat) (earlier later : List Report) :
    reportsAt left (earlier ++ later) = reportsAt left earlier + reportsAt left later :=
  List.countP_append

/-- A report is about one place. -/
theorem reportsAt_singleton_le (left : Nat) (report : Report) : reportsAt left [report] ≤ 1 :=
  List.countP_le_length

/-- A report that is about another place. -/
theorem reportsAt_singleton_of_ne {report : Report} (hother : report.left ≠ left) :
    reportsAt left [report] = 0 := by
  simp [reportsAt, hother]

/-- Reports about other places do not count. -/
private theorem reportsAt_eq_zero (hother : ∀ report ∈ reports, report.left ≠ left) :
    reportsAt left reports = 0 := by
  rw [reportsAt, List.countP_eq_zero]
  intro report hmem
  simpa using hother report hmem

namespace Run

/-- No report is about what a run leaves behind the next lexeme. -/
theorem reportsAt_of_lt_rest (hrun : Run unread rest reports) (hleft : left < rest.length) :
    reportsAt left reports = 0 := by
  refine reportsAt_eq_zero fun report hmem heq => ?_
  have hle := hrun.length_le_left hmem
  omega

/-- No report is about what is in front of a run. -/
theorem reportsAt_of_unread_lt (hrun : Run unread rest reports) (hleft : unread.length < left) :
    reportsAt left reports = 0 := by
  refine reportsAt_eq_zero fun report hmem heq => ?_
  obtain ⟨reached, hreached, habout⟩ := hrun.isAbout hmem
  have hle := hreached.length_le
  have hreport := habout.left
  omega

/-- The reports are about lexemes in the order of the input. -/
theorem pairwise_left (hrun : Run unread rest reports) :
    reports.Pairwise fun earlier later => later.left ≤ earlier.left := by
  induction hrun with
  | none => exact .nil
  | pass _ ih => exact ih
  | complain habout hlater ih =>
    refine .cons (fun report hmem => ?_) ih
    obtain ⟨reached, hreached, hreport⟩ := hlater.isAbout hmem
    rw [hreport.left, habout.left]
    exact hreached.length_le

end Run

end Places

/-- A run with no more than two reports about the same lexeme, one about the first, and so many
about the lexeme that is next behind it and about the end. -/
structure SparseRun (unread rest : List Lexeme) (reports : List Report) (next ending : Nat) :
    Prop where
  run : Run unread rest reports
  twice {left : Nat} : 0 < left → reportsAt left reports ≤ 2
  first : unread ≠ [] → reportsAt unread.length reports ≤ 1
  next : rest ≠ [] → reportsAt rest.length reports ≤ next
  ending : reportsAt 0 reports ≤ ending

namespace SparseRun

variable {unread rest last : List Lexeme} {earlier later reports : List Report} {report : Report}
  {next ending more : Nat} {lexeme : Lexeme}

/-- A run without reports. -/
theorem of_suffix (hsuffix : rest <:+ unread) : SparseRun unread rest [] next ending where
  run := .of_suffix hsuffix
  twice _ := Nat.zero_le 2
  first _ := Nat.zero_le 1
  next _ := Nat.zero_le next
  ending := Nat.zero_le ending

/-- A run with one report. -/
theorem of_report (hrun : Run unread rest [report]) (hending : 1 ≤ ending) :
    SparseRun unread rest [report] 1 ending where
  run := hrun
  twice {left} _ := Nat.le_trans (reportsAt_singleton_le left report) (by omega)
  first _ := reportsAt_singleton_le _ report
  next _ := reportsAt_singleton_le _ report
  ending := Nat.le_trans (reportsAt_singleton_le 0 report) hending

/-- More may be reported than is. -/
theorem mono {least : Nat} (hrun : SparseRun unread rest reports next ending)
    (hleast : next ≤ least) (hmore : ending ≤ more) : SparseRun unread rest reports least more :=
  { hrun with
    next := fun hrest => Nat.le_trans (hrun.next hrest) hleast
    ending := Nat.le_trans hrun.ending hmore }

/-- One more lexeme that is passed behind leaves what is next behind it alone. -/
theorem passing (hrun : SparseRun unread (lexeme :: rest) reports next ending) :
    SparseRun unread rest reports 0 0 where
  run := by
    have hpass : Run (lexeme :: rest) rest [] := .pass .none
    have hboth := hrun.run.append hpass
    rwa [List.append_nil] at hboth
  twice := hrun.twice
  first := hrun.first
  next _ := Nat.le_of_eq (hrun.run.reportsAt_of_lt_rest (by simp))
  ending := Nat.le_of_eq (hrun.run.reportsAt_of_lt_rest (by simp))

/-- A run behind one that leaves the lexeme that is next alone. -/
theorem append (hfirst : SparseRun unread rest earlier 0 ending)
    (hsecond : SparseRun rest last later next more)
    (hending : rest = [] → reportsAt 0 earlier + reportsAt 0 later ≤ more) :
    SparseRun unread last (earlier ++ later) next more := by
  have hrest : rest.length ≤ unread.length := hfirst.run.suffix.length_le
  have hlast : last.length ≤ rest.length := hsecond.run.suffix.length_le
  -- only one of the two runs reports about a lexeme
  have hplaces {left : Nat} (hleft : 0 < left) :
      reportsAt left (earlier ++ later) =
        if left ≤ rest.length then reportsAt left later else reportsAt left earlier := by
    rw [reportsAt_append]
    split
    · next hle =>
      rcases Nat.lt_or_eq_of_le hle with hlt | rfl
      · rw [hfirst.run.reportsAt_of_lt_rest hlt, Nat.zero_add]
      · have hnext := hfirst.next (List.length_pos_iff.mp hleft)
        omega
    · next hgt =>
      rw [hsecond.run.reportsAt_of_unread_lt (by omega), Nat.add_zero]
  constructor
  · exact hfirst.run.append hsecond.run
  · intro left hleft
    rw [hplaces hleft]
    split
    · exact hsecond.twice hleft
    · exact hfirst.twice hleft
  · intro hunread
    have hpositive := List.length_pos_iff.mpr hunread
    rw [hplaces hpositive]
    split
    · next hle =>
      obtain heq : unread.length = rest.length := by omega
      rw [heq]
      exact hsecond.first (List.length_pos_iff.mp (by omega))
    · exact hfirst.first hunread
  · intro hnil
    rw [hplaces (List.length_pos_iff.mpr hnil), if_pos hlast]
    exact hsecond.next hnil
  · rw [reportsAt_append]
    by_cases hnil : rest = []
    · exact hending hnil
    · rw [hfirst.run.reportsAt_of_lt_rest (List.length_pos_iff.mpr hnil), Nat.zero_add]
      exact hsecond.ending

/-- A run that moves on, unless it is the empty one, behind one that passes a lexeme. -/
theorem append_moving (hfirst : SparseRun unread rest earlier 1 ending)
    (hpassed : rest.length < unread.length) (hsecond : SparseRun rest last later 1 ending)
    (hmoves : later = [] ∧ last = rest ∨ last.length < rest.length) :
    SparseRun unread last (earlier ++ later) 1 ending := by
  have hlast : last.length ≤ rest.length := hsecond.run.suffix.length_le
  constructor
  · exact hfirst.run.append hsecond.run
  · intro left hleft
    rw [reportsAt_append]
    rcases Nat.lt_trichotomy left rest.length with hlt | rfl | hgt
    · rw [hfirst.run.reportsAt_of_lt_rest hlt, Nat.zero_add]
      exact hsecond.twice hleft
    · -- where the runs meet each of them reports once
      have hrest : rest ≠ [] := List.length_pos_iff.mp hleft
      exact Nat.add_le_add (hfirst.next hrest) (hsecond.first hrest)
    · rw [hsecond.run.reportsAt_of_unread_lt hgt]
      exact hfirst.twice hleft
  · intro hunread
    rw [reportsAt_append, hsecond.run.reportsAt_of_unread_lt hpassed]
    exact hfirst.first hunread
  · intro hnil
    rcases hmoves with ⟨rfl, rfl⟩ | hmoves
    · rw [List.append_nil]
      exact hfirst.next hnil
    · rw [reportsAt_append, hfirst.run.reportsAt_of_lt_rest hmoves, Nat.zero_add]
      exact hsecond.next hnil
  · rcases hmoves with ⟨rfl, rfl⟩ | hmoves
    · rw [List.append_nil]
      exact hfirst.ending
    · rw [reportsAt_append, hfirst.run.reportsAt_of_lt_rest (by omega), Nat.zero_add]
      exact hsecond.ending

/-- One more report about the end, where nothing is unread. -/
theorem complain_end (hrun : SparseRun unread [] reports next ending)
    (habout : report.IsAbout []) : SparseRun unread [] (reports ++ [report]) next (ending + 1) := by
  have hplace {left : Nat} (hleft : 0 < left) :
      reportsAt left (reports ++ [report]) = reportsAt left reports := by
    have hother : report.left ≠ left := by
      rw [habout.left]
      exact Nat.ne_of_lt hleft
    rw [reportsAt_append, reportsAt_singleton_of_ne hother, Nat.add_zero]
  constructor
  · exact hrun.run.append (.complain habout .none)
  · intro left hleft
    rw [hplace hleft]
    exact hrun.twice hleft
  · intro hunread
    rw [hplace (List.length_pos_iff.mpr hunread)]
    exact hrun.first hunread
  · exact fun hnil => absurd rfl hnil
  · rw [reportsAt_append]
    exact Nat.add_le_add hrun.ending (reportsAt_singleton_le 0 report)

end SparseRun

end BraceLang
