import BraceLang.Proofs.Containment.Carrying
import BraceLang.Proofs.Outline.Boundaries
import BraceLang.Proofs.Outline.Sealed

/-!
# Putting rows in at boundaries

At a boundary where no more levels may be opened, a row of lexemes is put in that is read as a
statement there. A parser that is silent without the row and sees that boundary reads what is in
front of the boundary as before: it has not looked over it. Then it reads the statement, and what is
behind as before. So it comes to the value with the statement put into a gap, and the only reports
are those of the row.
-/

namespace BraceLang

open BraceLang.Parser

variable {α β σ : Type} {options : Options}

/-- A row of lexemes that is read as one statement where no more levels may be opened, with what is
behind it, and does not begin with the brace that closes a block. -/
structure Insertable (options : Options) (row after : List Lexeme) (item : Statement)
    (reports : List Report) : Prop where
  begins : ∃ first others, row = first :: others ∧ first.isMarkOf ["\x7d"] = false
  reads : recovered (statement options none) (row ++ after) = .done item after reports

/-- Something is put in. -/
theorem Insertable.length_pos {row after : List Lexeme} {item : Statement} {reports : List Report}
    (hrow : Insertable options row after item reports) : 0 < row.length := by
  obtain ⟨first, others, rfl, -⟩ := hrow.begins
  exact Nat.succ_pos _

/-- With a row put in behind `before`, a parser comes to the value with the statement put into a gap
and leaves the same rest as without. -/
def Parser.Fills (options : Options) (gaps : Gaps α) (parser : Parser α)
    (before after : List Lexeme) (value : α) (rest : List Lexeme) : Prop :=
  rest <:+ after ∧ ∃ fill, gaps value fill ∧
    ∀ ⦃row : List Lexeme⦄ ⦃item : Statement⦄ ⦃reports : List Report⦄,
      Insertable options row after item reports →
      parser (before ++ (row ++ after)) = .done (fill item) rest reports

namespace Parser.Fills

variable {gaps : Gaps α} {more : Gaps β} {parser : Parser α} {next : α → Parser β} {first : α}
  {value : β} {before between after middle rest : List Lexeme}

/-- The row is put in where the first of two parsers reads. -/
theorem carry (hparser : parser.Fills options gaps before after first middle)
    (hcarries : Carries gaps next more) (hruns : (next first).Runs)
    (hnext : next first middle = .done value rest []) :
    (parser >>= next).Fills options more before after value rest := by
  obtain ⟨hmiddle, fill, hgap, hfill⟩ := hparser
  obtain ⟨filled, hmore, hfilled⟩ := hcarries hgap hnext
  refine ⟨(hruns.suffix hnext).trans hmiddle, filled, hmore, fun row item reports hrow => ?_⟩
  exact bind_of_done_silent (hfill hrow) (hfilled item)

/-- The row is put in where the second of two parsers reads. -/
theorem behind (hparser : ∀ row : List Lexeme, parser (before ++ (row ++ after)) =
      .done first (between ++ (row ++ after)) [])
    (hnext : (next first).Fills options more between after value rest) :
    (parser >>= next).Fills options more before after value rest := by
  obtain ⟨hrest, fill, hgap, hfill⟩ := hnext
  refine ⟨hrest, fill, hgap, fun row item reports hrow => ?_⟩
  rw [bind_of_silent _ (hparser row)]
  exact hfill hrow

section Rounds

variable {again finish : Gaps σ} {round : σ → Parser (Turn σ)} {state last : σ}
  {fuel : List Lexeme}

/-- The row is put in where the last round reads. -/
theorem finished
    (hround : (round state).Fills options (InTurn again finish) before after (.finish last) rest)
    (fuel : List Lexeme) :
    (repeatFor round fuel state).Fills options finish before after last rest := by
  obtain ⟨hrest, fill, hgap, hfill⟩ := hround
  cases hgap with
  | finish hlast =>
    exact ⟨hrest, _, hlast, fun _ _ _ hrow => repeatFor_of_finish fuel (hfill hrow)⟩

/-- The row is put in where a round reads behind which the repetition goes on. -/
theorem goingOn {held : σ} (lexeme : Lexeme)
    (hround : (round state).Fills options (InTurn again finish) before after (.again held) middle)
    (hcarries : Carries again round (InTurn again finish)) (hruns : ∀ state, (round state).Runs)
    (hlater : repeatFor round fuel held middle = .done last rest []) :
    (repeatFor round (lexeme :: fuel) state).Fills options finish before after last rest := by
  obtain ⟨hmiddle, fill, hgap, hfill⟩ := hround
  cases hgap with
  | again hheld =>
    obtain ⟨filled, hlast, hfilled⟩ := hcarries.repeatFor fuel hheld hlater
    have hrest := (Rounds.of_repeatFor hlater).suffix hruns
    refine ⟨hrest.trans hmiddle, filled, hlast, fun row item reports hrow => ?_⟩
    rw [repeatFor_of_again lexeme fuel (hfill hrow), hfilled, Reply.after, List.append_nil]

/-- The row is put in behind a round. -/
theorem later {held : σ} (lexeme : Lexeme)
    (hround : ∀ row : List Lexeme, round state (before ++ (row ++ after)) =
      .done (.again held) (between ++ (row ++ after)) [])
    (hlater : (repeatFor round fuel held).Fills options finish between after last rest) :
    (repeatFor round (lexeme :: fuel) state).Fills options finish before after last rest := by
  obtain ⟨hrest, fill, hgap, hfill⟩ := hlater
  refine ⟨hrest, fill, hgap, fun row item reports hrow => ?_⟩
  rw [repeatFor_of_again lexeme fuel (hround row), hfill hrow, Reply.after, List.nil_append]

/-- A repetition may take one more round for each lexeme that is put in. -/
theorem repeating (hfuel : fuel.length ≤ (before ++ after).length + 1)
    (hrounds : (repeatFor round fuel state).Fills options finish before after last rest) :
    (Parser.repeating round state).Fills options finish before after last rest := by
  obtain ⟨hrest, fill, hgap, hfill⟩ := hrounds
  refine ⟨hrest, fill, hgap, fun _ _ _ hrow => repeatFor_of_length_le ?_ (hfill hrow)⟩
  have hpositive := hrow.length_pos
  simp only [List.length_append] at hfuel ⊢
  omega

end Rounds

end Parser.Fills

/-- A parser that is silent and sees a boundary where no more levels may be opened allows for a row
to be put in there. -/
def Outline.Admits {allowance : Allowance} {known : Option Lexeme} {parser : Parser α}
    (options : Options) (gaps : Gaps α) (outline : Outline allowance known parser) : Prop :=
  ∀ ⦃before after rest : List Lexeme⦄ ⦃value : α⦄ ⦃depth : Int⦄, 0 ≤ depth →
    depth + allowance.levels = maxNesting →
    (∀ lexeme, known = some lexeme → (before ++ after).head? = some lexeme) →
    parser (before ++ after) = .done value rest [] →
    Event.boundary maxNesting after.length ∈ (outline.run depth (before ++ after)).events →
    Ample before ∧ parser.Fills options gaps before after value rest

/-- The place of a boundary that is seen behind a parser lies behind what the parser passes. -/
theorem Outline.exists_between {allowance : Allowance} {known : Option Lexeme}
    {parser : Parser α} (outline : Outline allowance known parser)
    {before after middle : List Lexeme} {value : α}
    (hdone : parser (before ++ after) = .done value middle [])
    (hleft : after.length ≤ middle.length) :
    ∃ between, middle = between ++ after := by
  obtain ⟨between, hbetween⟩ := List.suffix_of_suffix_length_le (List.suffix_append before after)
    (outline.runs.suffix hdone) hleft
  exact ⟨between, hbetween.symm⟩

/-- A boundary is seen by the first of two parsers, or in front of it the first one stops and it is
seen by the second one. -/
theorem Outline.bind_cases {allowance : Allowance} {known : Option Lexeme}
    {parser : Parser α} {next : α → Parser β} (outline : Outline allowance known parser)
    (following : ∀ value, Outline allowance none (next value)) {before after rest : List Lexeme}
    {value : β} {depth place : Int} (hpositive : 0 ≤ depth)
    (hdepth : depth + allowance.levels = maxNesting)
    (hdone : (parser >>= next) (before ++ after) = .done value rest [])
    (hevent : Event.boundary place after.length ∈
      ((Outline.bind outline following).run depth (before ++ after)).events) :
    (∃ first middle, parser (before ++ after) = .done first middle [] ∧
        next first middle = .done value rest [] ∧
        Event.boundary place after.length ∈ (outline.run depth (before ++ after)).events) ∨
      ∃ first between, parser (before ++ after) = .done first (between ++ after) [] ∧
        next first (between ++ after) = .done value rest [] ∧
        Event.boundary place after.length ∈
          ((following first).run depth (between ++ after)).events := by
  obtain ⟨first, middle, hinner, hlast⟩ := exists_of_bind_eq_silent hdone
  obtain ⟨hreply, hback, -⟩ := outline.run_keeps hpositive hdepth (before ++ after)
  rcases Course.mem_events_bind hevent with hearly | ⟨_, _, _, hreached, hlater⟩
  · exact .inl ⟨first, middle, hinner, hlast, hearly⟩
  · rw [hreply, hinner] at hreached
    obtain ⟨rfl, rfl, -⟩ := Reply.done.inj hreached
    rw [hback] at hlater
    have hleft := ((following first).lists_of_boundary hpositive hdepth hlater).2
    obtain ⟨between, rfl⟩ := outline.exists_between hinner hleft
    exact .inr ⟨first, between, hinner, hlast, hlater⟩

namespace Outline.Admits

variable {gaps : Gaps α} {more : Gaps β} {allowance : Allowance} {known : Option Lexeme}
  {lists literals : Bool} {levels : Nat}

/-- What sees no boundary. -/
theorem of_step {parser : Parser α} {outline : Outline allowance known parser}
    (hrun : ∀ depth unread, (outline.run depth unread).events = []) :
    outline.Admits options gaps := by
  intro before after rest value depth _ _ _ _ hevent
  rw [hrun] at hevent
  cases hevent

/-- Reading nothing sees no boundary. -/
theorem pure {value : α} :
    (Outline.pure value : Outline allowance known _).Admits options gaps :=
  .of_step fun _ _ => rfl

/-- The row is put in where the first parser reads, and then its value has a gap that is carried on,
or it is put in behind that. -/
theorem bind {parser : Parser α} {next : α → Parser β} {outline : Outline allowance known parser}
    {following : ∀ value, Outline allowance none (next value)}
    (hfirst : outline.Admits options gaps) (hcarries : Carries gaps next more)
    (hnext : ∀ value, (following value).Admits options more) :
    (Outline.bind outline following).Admits options more := by
  intro before after rest value depth hpositive hdepth hknown hdone hevent
  rcases outline.bind_cases following hpositive hdepth hdone hevent with
    ⟨first, middle, hinner, hlast, hseen⟩ | ⟨first, between, hinner, hlast, hseen⟩
  · obtain ⟨hample, hfills⟩ := hfirst hpositive hdepth hknown hinner hseen
    exact ⟨hample, hfills.carry hcarries (following first).runs hlast⟩
  · obtain ⟨hample, hfills⟩ := hnext first hpositive hdepth (fun _ h => nomatch h) hlast hseen
    have hbefore := hample.of_suffix (outline.runs.left_suffix hinner)
    refine ⟨hbefore, hfills.behind fun row => outline.isLocal (by simp) ?_ hample hinner⟩
    intro lexeme hlexeme
    rw [← hknown lexeme hlexeme, List.head?_append_of_ne_nil before hbefore.ne_nil]

/-- The row is put in behind a parser that sees no boundary. -/
theorem behind {parser : Parser α} {next : α → Parser β}
    {outline : Outline allowance known parser}
    {following : ∀ value, Outline allowance none (next value)}
    (hfirst : outline.Admits options NoGaps)
    (hnext : ∀ value, (following value).Admits options more) :
    (Outline.bind outline following).Admits options more :=
  .bind hfirst .none hnext

/-- A row is put in on the way that a decision takes. -/
theorem cond {condition : Prop} [Decidable condition] {yes no : Parser α}
    {affirmed : condition → Outline allowance known yes}
    {denied : ¬condition → Outline allowance known no}
    (hyes : ∀ h, (affirmed h).Admits options gaps) (hno : ∀ h, (denied h).Admits options gaps) :
    (Outline.cond condition affirmed denied).Admits options gaps := by
  intro before after rest value depth hpositive hdepth hknown hdone hevent
  unfold run at hevent
  split at hevent
  · next hcondition =>
    rw [if_pos hcondition] at hdone ⊢
    exact hyes hcondition hpositive hdepth hknown hdone hevent
  · next hcondition =>
    rw [if_neg hcondition] at hdone ⊢
    exact hno hcondition hpositive hdepth hknown hdone hevent

/-- Either way behind a question. -/
theorem either {question : Parser Bool} {yes no : Parser α}
    {asking : Outline allowance known question} {affirmed : Outline allowance none yes}
    {denied : Outline allowance none no} (hasking : asking.Admits options NoGaps)
    (hyes : affirmed.Admits options gaps) (hno : denied.Admits options gaps) :
    (asking.either affirmed denied).Admits options gaps :=
  .behind hasking fun _ => .cond (fun _ => hyes) fun _ => hno

/-- Whatever is known of the next lexeme. -/
theorem anyway {parser : Parser α} {outline : Outline allowance none parser}
    (houtline : outline.Admits options gaps) :
    (Outline.anyway outline : Outline allowance known _).Admits options gaps :=
  fun _ _ _ _ _ hpositive hdepth _ => houtline hpositive hdepth fun _ h => nomatch h

/-- The lexeme that is next is in front of the boundary. -/
theorem look {next : Option Lexeme → Parser α} {atEnd : Outline allowance none (next none)}
    {before : ∀ lexeme, Outline allowance (some lexeme) (next (some lexeme))}
    (hnone : atEnd.Admits options gaps) (hsome : ∀ lexeme, (before lexeme).Admits options gaps) :
    (Outline.look atEnd before : Outline allowance known _).Admits options gaps := by
  intro front after rest value depth hpositive hdepth _ hdone hevent
  rw [peek_bind] at hdone
  unfold run at hevent
  have hinner : Ample front ∧
      (next (front ++ after).head?).Fills options gaps front after value rest := by
    cases hhead : (front ++ after).head? with
    | none =>
      rw [hhead] at hdone hevent
      have hknown (lexeme : Lexeme) (hlexeme : none = some lexeme) :
          (front ++ after).head? = some lexeme := absurd hlexeme (Option.some_ne_none lexeme).symm
      exact hnone hpositive hdepth hknown hdone hevent
    | some lexeme =>
      rw [hhead] at hdone hevent
      refine hsome lexeme hpositive hdepth (fun other hother => ?_) hdone hevent
      rw [hhead, hother]
  obtain ⟨hample, hrest, fill, hgap, hfill⟩ := hinner
  refine ⟨hample, hrest, fill, hgap, fun row item reports hrow => ?_⟩
  rw [List.head?_append_of_ne_nil front hample.ne_nil] at hfill
  rw [peek_bind, List.head?_append_of_ne_nil front hample.ne_nil]
  exact hfill hrow

/-- What has no list of statements sees no boundary. -/
theorem plain {parser : Parser α} (outline : Outline ⟨false, levels, literals⟩ known parser) :
    (Outline.plain outline).Admits options gaps := by
  intro before after rest value depth hpositive hdepth _ _ hevent
  have hlists := (outline.lists_of_boundary hpositive hdepth hevent).1
  cases hlists

/-- The row is put in one level further in. -/
theorem nested {layer : Layer} {parser : Layer → Parser α}
    {outline : Outline ⟨lists, levels, literals⟩ none (parser layer)}
    (houtline : outline.Admits options gaps) : outline.nested.Admits options gaps := by
  intro before after rest value depth hpositive hdepth hknown hdone hevent
  simp only at hdepth
  refine houtline (by omega) ?_ hknown hdone (Course.boundary_of_deeper hevent)
  simp only
  omega

/-- The row is put in where struct literals are allowed or forbidden. -/
theorem allowing {allowed : Bool} {parser : Parser α}
    {outline : Outline ⟨lists, levels, allowed⟩ none parser}
    (houtline : outline.Admits options gaps) :
    (Outline.allowing allowed outline : Outline ⟨lists, levels, literals⟩ none _).Admits options
      gaps :=
  fun _ _ _ _ _ hpositive hdepth hknown hdone hevent =>
    houtline hpositive hdepth hknown hdone hevent

/-- The row is put in where it was asked whether struct literals are allowed. -/
theorem asking {next : Bool → Parser α} {outline : ∀ answer, Outline allowance none (next answer)}
    (houtline : (outline allowance.literals).Admits options gaps) :
    (Outline.asking next outline).Admits options gaps :=
  fun _ _ _ _ _ hpositive hdepth hknown hdone hevent =>
    houtline hpositive hdepth hknown hdone hevent

/-- The row is put in during a call. -/
theorem call {parser : Parser α} {outline : Outline allowance none parser}
    (houtline : outline.Admits options gaps) : outline.call.Admits options gaps :=
  fun _ _ _ _ _ hpositive hdepth hknown hdone hevent =>
    houtline hpositive hdepth hknown hdone hevent

/-- Nothing is read where no level is left. -/
theorem tooDeep {parser : Layer → Parser α} :
    (Outline.tooDeep parser : Outline ⟨lists, 0, literals⟩ _ _).Admits options gaps :=
  fun _ _ _ _ _ _ _ _ hdone => nomatch hdone

section Rounds

variable {again finish : Gaps σ} {round : σ → Parser (Turn σ)}
  {outline : ∀ state, Outline allowance none (round state)}

/-- A row is put in in the round that sees the boundary. The rounds in front of it are those that
were there before, and so are those behind it. -/
private theorem rounds (hround : ∀ state, (outline state).Admits options (InTurn again finish))
    (hcarries : Carries again round (InTurn again finish)) {before after rest fuel : List Lexeme}
    {state last : σ} {depth : Int} (hpositive : 0 ≤ depth)
    (hdepth : depth + allowance.levels = maxNesting)
    (hdone : repeatFor round fuel state (before ++ after) = .done last rest [])
    (hevent : Event.boundary maxNesting after.length ∈ (Course.rounds
      (fun state => (outline state).run) fuel state depth (before ++ after)).events) :
    Ample before ∧ (repeatFor round fuel state).Fills options finish before after last rest := by
  have hkeeps state := (outline state).run_keeps hpositive hdepth
  have hruns state := (outline state).runs
  refine Course.seen_induction (motive := fun fuel state unread =>
    ∀ before, unread = before ++ after →
      Ample before ∧ (repeatFor round fuel state).Fills options finish before after last rest)
    ?_ ?_ ?_ hkeeps hdone hevent before rfl
  · rintro fuel state _ hseen hfinish before rfl
    obtain ⟨hample, hfills⟩ := hround state hpositive hdepth (fun _ h => nomatch h) hfinish hseen
    exact ⟨hample, hfills.finished fuel⟩
  · rintro lexeme fuel state held _ middle hseen hagain hlater before rfl
    obtain ⟨hample, hfills⟩ := hround state hpositive hdepth (fun _ h => nomatch h) hagain hseen
    exact ⟨hample, hfills.goingOn lexeme hcarries hruns hlater⟩
  · rintro lexeme fuel state held _ middle hseen hagain ih before rfl
    obtain ⟨between, rfl⟩ := (outline state).exists_between hagain
      (left_le_of_rounds outline hpositive hdepth hseen)
    obtain ⟨hample, hfills⟩ := ih between rfl
    refine ⟨hample.of_suffix ((hruns state).left_suffix hagain), hfills.later lexeme fun row => ?_⟩
    exact (outline state).isLocal (by simp) (fun _ h => nomatch h) hample hagain

/-- The row is put in where one of the rounds reads. -/
theorem repeating {chain : Bool} {state : σ}
    (hround : ∀ state, (outline state).Admits options (InTurn again finish))
    (hcarries : Carries again round (InTurn again finish)) :
    (Outline.repeating chain state outline).Admits options finish := by
  intro before after rest last depth hpositive hdepth _ hdone hevent
  obtain ⟨hample, hfills⟩ := rounds hround hcarries hpositive hdepth hdone hevent
  exact ⟨hample, hfills.repeating (Nat.le_succ _)⟩

end Rounds

/-- A statement that is recovered is one into which a row is put without a failure. -/
theorem recovered {parser : Parser Statement} {outline : Outline allowance none parser}
    {gaps : Gaps Statement} (houtline : outline.Admits options gaps) :
    outline.recovered.Admits options gaps := by
  intro before after rest value depth hpositive hdepth hknown hdone hevent
  obtain ⟨hample, hrest, fill, hgap, hfill⟩ :=
    houtline hpositive hdepth hknown (done_of_recovered hdone) hevent
  exact ⟨hample, hrest, fill, hgap, fun _ _ _ hrow => recovered_of_done (hfill hrow)⟩

/-- Where a row is put in something has been passed. -/
theorem passing {parser : Parser α} {outline : Outline allowance none parser}
    (houtline : outline.Admits options gaps) : outline.passing.Admits options gaps := by
  intro before after rest value depth hpositive hdepth hknown hdone hevent
  obtain ⟨left, hinner, hrest⟩ := done_of_passing hdone
  obtain ⟨hample, hleft, fill, hgap, hfill⟩ := houtline hpositive hdepth hknown hinner hevent
  have hbefore := List.length_pos_iff.mpr hample.ne_nil
  have hlength := hleft.length_le
  rw [List.length_append, if_pos (by omega)] at hrest
  subst hrest
  refine ⟨hample, hleft, fill, hgap, fun _ _ _ hrow => passing_of_done (hfill hrow) ?_⟩
  simp only [List.length_append]
  omega

/-- A boundary that is seen where a list of statements is at one is that one, or it is seen in what
is read next. -/
theorem boundary {parser : Parser α} {outline : Outline ⟨true, levels, literals⟩ none parser}
    (houtline : outline.Admits options gaps) {before after rest : List Lexeme} {value : α}
    {depth : Int} (hpositive : 0 ≤ depth) (hdepth : depth + levels = maxNesting)
    (hdone : parser (before ++ after) = .done value rest [])
    (hevent : Event.boundary maxNesting after.length ∈
      (outline.boundary.run depth (before ++ after)).events) :
    levels = 0 ∧ before = [] ∨
      Ample before ∧ parser.Fills options gaps before after value rest := by
  rcases List.mem_cons.mp hevent with hhere | hinside
  · obtain ⟨rfl, hlength⟩ := Event.boundary.inj hhere
    rw [List.length_append] at hlength
    exact .inl ⟨by omega, List.length_eq_zero_iff.mp (by omega)⟩
  · exact .inr (houtline hpositive hdepth (fun _ h => nomatch h) hdone hinside)

section Primitives

/-- A test sees no boundary. -/
theorem test {question : Option Lexeme → Bool} {gaps : Gaps Bool} :
    (Outline.test question : Outline allowance known _).Admits options gaps :=
  .look .pure fun _ => .pure

/-- Nor does asking for a mark. -/
theorem nextIsMark {marks : List String} {gaps : Gaps Bool} :
    (Outline.nextIsMark marks : Outline allowance known _).Admits options gaps := test

/-- Nor does asking for a word. -/
theorem nextIsWord {words : List String} {gaps : Gaps Bool} :
    (Outline.nextIsWord words : Outline allowance known _).Admits options gaps := test

/-- Nor does asking for the end of the input. -/
theorem atEnd {gaps : Gaps Bool} :
    (Outline.atEnd : Outline allowance known _).Admits options gaps := test

/-- Nor does passing a lexeme. -/
theorem advance {gaps : Gaps Unit} :
    (Outline.advance : Outline allowance none _).Admits options gaps :=
  .of_step fun _ _ => rfl

/-- Nor does a failure. -/
theorem reject {expected : Expected} :
    (Outline.reject expected : Outline allowance none (_ : Parser α)).Admits options gaps :=
  .of_step fun _ _ => rfl

/-- Nor does one that passes a lexeme. -/
theorem rejectPassing {expected : Expected} :
    (Outline.rejectPassing expected : Outline allowance none (_ : Parser α)).Admits options
      gaps :=
  .of_step fun _ _ => rfl

/-- Passing a mark that may be next sees no boundary. -/
theorem accept {marks : List String} {gaps : Gaps Bool} :
    (Outline.accept marks : Outline allowance none _).Admits options gaps :=
  .either .nextIsMark (.behind .advance fun _ => .pure) .pure

/-- Nor does passing one that has to be next. -/
theorem expectMark {mark : String} {expected : Expected} {gaps : Gaps Unit} :
    (Outline.expectMark mark expected : Outline allowance none _).Admits options gaps :=
  .either .nextIsMark .advance .reject

/-- Nor does passing a word. -/
theorem expectWord {word : String} {expected : Expected} {gaps : Gaps Unit} :
    (Outline.expectWord word expected : Outline allowance none _).Admits options gaps :=
  .either .nextIsWord .advance .reject

/-- Nor does reading an identifier. -/
theorem identifier {expected : Expected} {gaps : Gaps String} :
    (Outline.identifier expected : Outline allowance none _).Admits options gaps :=
  .look .reject fun _ => .anyway <|
    .cond (fun _ => .behind .advance fun _ => .pure) fun _ => .reject

end Primitives

end Outline.Admits

end BraceLang
