import BraceLang.Proofs.Containment.Admission

/-!
# Putting rows in between statements

A list of statements asks at every boundary whether there is another statement. A row that is put
in there is read as one, and the rounds behind it are those that were there before. The statements
in front of it end in a mark of their own if no more levels may be opened, so they do not look at
what is put in.
-/

namespace BraceLang

open BraceLang.Parser

variable {options : Options}

/-- A gap behind a row of statements is one in front of what follows. -/
theorem Statement.RowGap.append {row : List Statement} {fill : Statement → List Statement}
    (hrow : RowGap row fill) (later : List Statement) :
    RowGap (row ++ later) fun item => fill item ++ later := by
  cases hrow with
  | here => simpa using RowGap.here
  | inside hinside =>
    obtain ⟨hvalue⟩ := hinside
    simpa using RowGap.inside (InList.mk hvalue)

/-- Gaps in the statements that the rounds of a list hold, the last one first. -/
def HeldGap : Gaps (List Statement) := fun items fill =>
  Statement.RowGap items.reverse fun item => (fill item).reverse

namespace HeldGap

variable {items : List Statement} {value : Statement}

/-- A gap stays one behind the statements that are held later. -/
theorem cons {fill : Statement → List Statement} (hitems : HeldGap items fill)
    (value : Statement) : HeldGap (value :: items) fun item => value :: fill item := by
  simpa [HeldGap] using hitems.append [value]

/-- The gap behind all that is held. -/
theorem here (items : List Statement) : HeldGap items fun item => item :: items := by
  simpa [HeldGap] using @Statement.RowGap.here items.reverse []

/-- A gap in the statement that was read last. -/
theorem inside {fill : Statement → Statement} (hvalue : value.Gap fill) :
    HeldGap (value :: items) fun item => fill item :: items := by
  simpa [HeldGap] using Statement.RowGap.inside (@InList.mk _ _ items.reverse [] _ _ hvalue)

end HeldGap

section Rounds

variable {levels : Nat} {statement : Parser Statement} {closing : List String}

/-- The next statement carries the gaps in those that are held. -/
theorem Carries.nextStatement :
    Carries HeldGap (Parser.nextStatement statement closing) (InTurn HeldGap HeldGap) :=
  .after fun _ => .cond (.pure .finish) <| .after fun _ => .cond (.pure .finish) <|
    .after fun item => .pure fun hitems => .again (hitems.cons item)

/-- A row that is put in where a list of statements is at a boundary is read as a statement, and the
rounds behind it are the same. -/
theorem Parser.Fills.here (hclosing : closing ⊆ ["\x7d"]) {after rest fuel : List Lexeme}
    {items last : List Statement} (lexeme : Lexeme)
    (hdone : repeatFor (nextStatement (Parser.statement options none) closing) fuel items after =
      .done last rest []) :
    (repeatFor (nextStatement (Parser.statement options none) closing) (lexeme :: fuel)
      items).Fills options HeldGap [] after last rest := by
  obtain ⟨filled, hlast, hfilled⟩ := Carries.nextStatement.repeatFor fuel (HeldGap.here items) hdone
  have innermost : Outline ⟨true, 0, true⟩ none (Parser.statement options none) :=
    InsideOutlines.nothing.statement
  have hrest := (Rounds.of_repeatFor hdone).suffix fun items =>
    (innermost.nextStatement closing items).runs
  refine ⟨hrest, filled, hlast, fun row item reports hrow => ?_⟩
  obtain ⟨first, others, rfl, hfirst⟩ := hrow.begins
  have hless : after.length < (first :: others ++ after).length := by
    rw [List.length_append, List.length_cons]
    omega
  have hgoes : ¬first.isMarkOf closing = true := by
    intro hmark
    have hbrace := Lexeme.isMarkOf_subset hmark hclosing
    rw [hfirst] at hbrace
    cases hbrace
  have hround : nextStatement (Parser.statement options none) closing items
      (first :: others ++ after) = .done (.again (item :: items)) after reports :=
    nextStatement_of_recovered items (by simpa using hgoes) hrow.reads hless
  rw [List.nil_append, repeatFor_of_again lexeme fuel hround, hfilled, Reply.after, List.append_nil]

variable {literals : Bool} {outline : Outline ⟨true, levels, literals⟩ none statement}

/-- A round of a list of statements is at a boundary, and behind that it may read a statement. -/
private theorem nextStatement_admits (houtline : outline.Admits options Statement.Gap)
    (items : List Statement) : ∃ inner : Outline ⟨true, levels, literals⟩ none _,
      Outline.nextStatement outline closing items = .boundary inner ∧
        inner.Admits options (InTurn HeldGap HeldGap) := by
  refine ⟨_, rfl, .either .atEnd .pure (.either .nextIsMark .pure ?_)⟩
  have hagain : Carries Statement.Gap
      (fun item => (pure (.again (item :: items)) : Parser (Turn (List Statement))))
      (InTurn HeldGap HeldGap) := .pure fun hvalue => .again (.inside hvalue)
  exact .bind houtline.recovered.passing hagain fun _ => .pure

variable (hclosing : closing ⊆ ["\x7d"]) (houtline : outline.Admits options Statement.Gap)
  (hinnermost : levels = 0 → statement = Parser.statement options none)
include hinnermost

/-- What is read in front of a boundary does not look over it: either something is left there that
is read by another statement, or no more levels may be opened. -/
private theorem passing_reads (outline : Outline ⟨true, levels, literals⟩ none statement)
    {before between after : List Lexeme} {item : Statement}
    (hdone : passing (recovered statement) (before ++ after) = .done item (between ++ after) [])
    (hbetween : levels = 0 ∧ between = [] ∨ Ample between) (row : List Lexeme) :
    Ample before ∧ passing (recovered statement) (before ++ (row ++ after)) =
      .done item (between ++ (row ++ after)) [] := by
  have hlength : after.length ≤ (row ++ after).length := by simp
  rcases hbetween with ⟨hlevels, rfl⟩ | hample
  · obtain rfl := hinnermost hlevels
    exact (statement_sealed options).recovered.passing.ignores hlength hdone
  · have hread := outline.recovered.passing
    refine ⟨hample.of_suffix (hread.runs.left_suffix hdone), ?_⟩
    exact hread.isLocal hlength (fun _ h => nomatch h) hample hdone

include hclosing houtline

/-- The row is put in at a boundary of one of the rounds, or where one of the statements reads. -/
private theorem statements_rounds {before after rest fuel : List Lexeme}
    {items last : List Statement} {depth : Int} (hpositive : 0 ≤ depth)
    (hdepth : depth + levels = maxNesting) (extra : Lexeme)
    (hdone : repeatFor (nextStatement statement closing) fuel items (before ++ after) =
      .done last rest [])
    (hevent : Event.boundary maxNesting after.length ∈
      (Course.rounds (fun items => (Outline.nextStatement outline closing items).run) fuel items
        depth (before ++ after)).events) :
    (levels = 0 ∧ before = [] ∨ Ample before) ∧
      (repeatFor (nextStatement statement closing) (extra :: fuel) items).Fills options HeldGap
        before after last rest := by
  have hkeeps items := (Outline.nextStatement outline closing items).run_keeps hpositive hdepth
  have hruns items := (Outline.nextStatement outline closing items).runs
  refine Course.seen_induction (motive := fun fuel items unread =>
    ∀ before extra, unread = before ++ after → (levels = 0 ∧ before = [] ∨ Ample before) ∧
      (repeatFor (nextStatement statement closing) (extra :: fuel) items).Fills options HeldGap
        before after last rest) ?_ ?_ ?_ hkeeps hdone hevent before extra rfl
  · rintro fuel items _ hseen hfinish before extra rfl
    obtain ⟨inner, hinner, hadmits⟩ := nextStatement_admits houtline items
    rw [hinner] at hseen
    rcases hadmits.boundary hpositive hdepth hfinish hseen with ⟨hlevels, rfl⟩ | ⟨hample, hfills⟩
    · obtain rfl := hinnermost hlevels
      exact ⟨.inl ⟨hlevels, rfl⟩, .here hclosing extra (repeatFor_of_finish fuel hfinish)⟩
    · exact ⟨.inr hample, hfills.finished _⟩
  · rintro lexeme fuel items held _ middle hseen hagain hlater before extra rfl
    obtain ⟨inner, hinner, hadmits⟩ := nextStatement_admits houtline items
    rw [hinner] at hseen
    rcases hadmits.boundary hpositive hdepth hagain hseen with ⟨hlevels, rfl⟩ | ⟨hample, hfills⟩
    · obtain rfl := hinnermost hlevels
      have hrounds := repeatFor_of_again lexeme fuel hagain
      rw [hlater, Reply.after] at hrounds
      exact ⟨.inl ⟨hlevels, rfl⟩, .here hclosing extra hrounds⟩
    · have hmore : fuel.length ≤ (lexeme :: fuel).length := Nat.le_succ _
      have hrounds := repeatFor_of_length_le hmore hlater
      exact ⟨.inr hample, hfills.goingOn extra Carries.nextStatement hruns hrounds⟩
  · rintro lexeme fuel items _ _ middle hseen hagain ih before extra rfl
    obtain ⟨between, rfl⟩ := (Outline.nextStatement outline closing items).exists_between hagain
      (Outline.left_le_of_rounds _ hpositive hdepth hseen)
    obtain ⟨hbetween, hfills⟩ := ih between lexeme rfl
    obtain ⟨item, rfl, hitem, -⟩ := nextStatement_again hagain
    have hreads := passing_reads hinnermost outline hitem hbetween
    have hample := (hreads []).1
    refine ⟨.inr hample, hfills.later extra fun row => ?_⟩
    rw [nextStatement_apply, List.head?_append_of_ne_nil before hample.ne_nil] at hagain ⊢
    split at hagain
    · cases hagain
    · next hgoes => rw [if_neg hgoes, map_of_done _ (hreads row).2]

/-- A row that is put in at a boundary of a list of statements, or in one of them, is read in its
place. -/
theorem Parser.statements_fills {before after rest : List Lexeme} {value : List Statement}
    {depth : Int} (hpositive : 0 ≤ depth) (hdepth : depth + levels = maxNesting)
    (hdone : statements statement closing (before ++ after) = .done value rest [])
    (hevent : Event.boundary maxNesting after.length ∈
      ((Outline.statements outline closing).run depth (before ++ after)).events) :
    (levels = 0 ∧ before = [] ∨ Ample before) ∧
      (statements statement closing).Fills options Statement.RowGap before after value rest := by
  have hreversed : Carries HeldGap (fun items => (pure items.reverse : Parser _))
      Statement.RowGap := .pure fun hgap => hgap
  rcases Outline.bind_cases (.repeating false [] (outline.nextStatement closing))
    (fun items => .pure items.reverse) hpositive hdepth hdone hevent with
    ⟨items, middle, hitems, hreverse, hseen⟩ | ⟨_, _, -, -, hseen⟩
  · obtain ⟨hbefore, hfills⟩ := statements_rounds hclosing houtline hinnermost hpositive hdepth
      ⟨.endOfInput, ""⟩ hitems hseen
    exact ⟨hbefore, (hfills.repeating (Nat.le_refl _)).carry hreversed (.pure _) hreverse⟩
  · cases hseen

end Rounds

end BraceLang
