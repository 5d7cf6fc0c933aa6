import BraceLang.Proofs.Parsing.Steps

/-!
# What parsers yield

A parser may come to a value, and reports may be made on the way. A condition on both that is met
wherever this happens, whatever is unread, is what the parser yields. Conditions are put together
along the parser: what is reported behind a value follows what was reported for it, and a repetition
keeps a condition on what it has collected so far.
-/

namespace BraceLang

variable {α β σ : Type}

/-- A reply that meets a condition if it has a value. -/
def Reply.Gives (condition : α → List Report → Prop) : Reply α → Prop
  | .done value _ reports => condition value reports
  | .failed .. | .stopped _ => True

/-- Reports in front of a reply are reports of its value. -/
theorem Reply.Gives.after {reply : Reply α} {earlier : List Report}
    {condition : α → List Report → Prop}
    (hreply : reply.Gives fun value later => condition value (earlier ++ later)) :
    (reply.after earlier).Gives condition := by
  cases reply <;> exact hreply

namespace Parser

/-- Whatever is unread, the values of a parser and the reports made for them meet a condition. -/
def Yields (parser : Parser α) (condition : α → List Report → Prop) : Prop :=
  ∀ unread, (parser unread).Gives condition

/-- A parser that reports nothing where it comes to a value. -/
abbrev Silent (parser : Parser α) : Prop := parser.Yields fun _ reports => reports = []

/-- A silent parser whose values meet a condition. -/
abbrev Finds (parser : Parser α) (condition : α → Prop) : Prop :=
  parser.Yields fun value reports => condition value ∧ reports = []

namespace Yields

variable {parser : Parser α} {next : α → Parser β} {condition weaker first : α → List Report → Prop}
  {outcome : β → List Report → Prop}

/-- What a parser yields has every weaker property. -/
theorem mono (hparser : parser.Yields condition)
    (hweaker : ∀ value reports, condition value reports → weaker value reports) :
    parser.Yields weaker := by
  intro unread
  have hreply := hparser unread
  cases hrun : parser unread with
  | done value rest reports =>
    rw [hrun] at hreply
    exact hweaker value reports hreply
  | failed | stopped => trivial

/-- A value without reports. -/
theorem pure {value : α} (hvalue : condition value []) :
    (Pure.pure value : Parser α).Yields condition :=
  fun _ => hvalue

/-- A failure yields nothing. -/
theorem reject (expected : Expected) : (Parser.reject expected : Parser α).Yields condition :=
  fun _ => trivial

/-- What is yielded behind a value. -/
theorem bind (hparser : parser.Yields first)
    (hnext : ∀ value earlier, first value earlier →
      (next value).Yields fun result later => outcome result (earlier ++ later)) :
    (parser >>= next).Yields outcome := by
  intro unread
  have hreply := hparser unread
  cases hrun : parser unread with
  | done value rest earlier =>
    rw [hrun] at hreply
    rw [bind_of_done next hrun]
    exact .after (hnext value earlier hreply rest)
  | failed report rest reports =>
    rw [bind_of_failed next hrun]
    trivial
  | stopped halt =>
    rw [bind_of_stopped next hrun]
    trivial

/-- A value that is made into another one. -/
theorem returning {make : α → β} (hparser : parser.Yields first)
    (hmake : ∀ value reports, first value reports → outcome (make value) reports) :
    (parser >>= fun value => Pure.pure (make value)).Yields outcome := by
  refine hparser.bind fun value reports hvalue => .pure ?_
  rw [List.append_nil]
  exact hmake value reports hvalue

/-- A value that is made into another one behind what closes it. -/
theorem closing {γ : Type} {make : α → β} {behind : Parser γ} (hparser : parser.Yields first)
    (hbehind : behind.Silent)
    (hmake : ∀ value reports, first value reports → outcome (make value) reports) :
    (parser >>= fun value => behind >>= fun _ => Pure.pure (make value)).Yields outcome := by
  refine hparser.bind fun value reports hvalue => .bind hbehind fun _ later hlater => .pure ?_
  rw [hlater, List.append_nil, List.append_nil]
  exact hmake value reports hvalue

end Yields

/-- Behind a silent parser nothing is reported yet. -/
theorem Silent.bind {parser : Parser α} {next : α → Parser β} {outcome : β → List Report → Prop}
    (hparser : parser.Silent) (hnext : ∀ value, (next value).Yields outcome) :
    (parser >>= next).Yields outcome := by
  refine Yields.bind hparser ?_
  rintro value _ rfl
  exact hnext value

/-- Behind a silent parser its condition is known. -/
theorem Finds.bind {parser : Parser α} {next : α → Parser β} {condition : α → Prop}
    {outcome : β → List Report → Prop} (hparser : parser.Finds condition)
    (hnext : ∀ value, condition value → (next value).Yields outcome) :
    (parser >>= next).Yields outcome := by
  refine Yields.bind hparser ?_
  rintro value _ ⟨hvalue, rfl⟩
  exact hnext value hvalue

/-- Either way behind a silent question. -/
theorem Silent.either {question : Parser Bool} {yes no : Parser β}
    {outcome : β → List Report → Prop} (hquestion : question.Silent) (hyes : yes.Yields outcome)
    (hno : no.Yields outcome) :
    (question >>= fun answer => if answer = true then yes else no).Yields outcome := by
  refine hquestion.bind fun answer => ?_
  split
  · exact hyes
  · exact hno

section Primitives

/-- Asking for the next lexeme reports nothing. -/
theorem peek_silent : peek.Silent := fun _ => rfl

/-- Nor does asking for the one behind it. -/
theorem peekSecond_silent : peekSecond.Silent := fun _ => rfl

/-- Nor does passing a lexeme. -/
theorem advance_silent : advance.Silent := fun _ => rfl

/-- Nor does asking for a mark. -/
theorem nextIsMark_silent (marks : List String) : (nextIsMark marks).Silent := fun _ => rfl

/-- Nor does asking for a word. -/
theorem nextIsWord_silent (words : List String) : (nextIsWord words).Silent := fun _ => rfl

/-- Nor does asking for the end of the input. -/
theorem atEnd_silent : atEnd.Silent := fun _ => rfl

/-- Nor does asking for an operator. -/
theorem nextOperator_silent (precedence : Nat) : (nextOperator precedence).Silent := fun _ => rfl

/-- Nor does asking for type arguments. -/
theorem nextAreTypeArguments_silent : nextAreTypeArguments.Silent := fun _ => rfl

/-- Nor does asking for a function value. -/
theorem nextIsFunctionValue_silent : nextIsFunctionValue.Silent := fun _ => rfl

/-- Passing a mark that may be next reports nothing. -/
theorem accept_silent (marks : List String) : (accept marks).Silent := by
  intro unread
  rw [accept_apply]
  split <;> rfl

/-- Passing one that has to be next is silent up to its failure. -/
theorem expectMark_silent (mark : String) (expected : Expected) :
    (expectMark mark expected).Silent := by
  intro unread
  rw [expectMark_apply]
  split <;> trivial

/-- So is passing a word. -/
theorem expectWord_silent (word : String) (expected : Expected) :
    (expectWord word expected).Silent := by
  intro unread
  rw [expectWord_apply]
  split <;> trivial

/-- So is reading an identifier. -/
theorem identifier_silent (expected : Expected) : (identifier expected).Silent := by
  intro unread
  rw [identifier_apply]
  split <;> trivial

/-- So is reading any word. -/
theorem word_silent (expected : Expected) : (word expected).Silent := by
  intro unread
  rw [word_apply]
  split <;> trivial

/-- A numeral reports nothing, and may stop everything. -/
theorem numeral_silent (text : String) : (numeral text).Silent := by
  intro unread
  unfold numeral
  cases Numeral.read text <;> trivial

end Primitives

section Rounds

variable {round : σ → Parser (Turn σ)} {held outcome : σ → List Report → Prop}

/-- What a round has to yield behind what was reported before it: a condition on what is held if it
goes on, and the outcome if it is the last. -/
def Continues (held outcome : σ → List Report → Prop) (earlier : List Report) (turn : Turn σ)
    (later : List Report) : Prop :=
  match turn with
  | .again next => held next (earlier ++ later)
  | .finish last => outcome last (earlier ++ later)

/-- A round that goes on. -/
theorem Yields.again {state : σ} {earlier reports : List Report}
    (hstate : held state (earlier ++ reports)) :
    (Pure.pure (Turn.again state) : Parser (Turn σ)).Yields fun turn later =>
      Continues held outcome earlier turn (reports ++ later) := by
  refine .pure ?_
  rw [List.append_nil]
  exact hstate

/-- A round that is the last and reports nothing. -/
theorem Yields.finish {state : σ} {earlier : List Report} (hstate : outcome state earlier) :
    (Pure.pure (Turn.finish state) : Parser (Turn σ)).Yields (Continues held outcome earlier) := by
  refine .pure ?_
  change outcome state (earlier ++ [])
  rwa [List.append_nil]

/-- What every round keeps holds behind as many rounds as there may be. -/
private theorem repeatFor_yields
    (hround : ∀ state earlier, held state earlier →
      (round state).Yields (Continues held outcome earlier))
    (rounds : List Lexeme) {state : σ} {earlier : List Report} (hstate : held state earlier) :
    Yields (repeatFor round rounds state) fun last later => outcome last (earlier ++ later) := by
  induction rounds generalizing state earlier with
  | nil =>
    refine Yields.bind (hround state earlier hstate) ?_
    rintro (next | last) reports hturn unread
    · trivial
    · change outcome last (earlier ++ (reports ++ []))
      rwa [List.append_nil]
  | cons lexeme rounds ih =>
    refine Yields.bind (hround state earlier hstate) ?_
    rintro (next | last) reports hturn unread
    · simpa only [List.append_assoc] using ih hturn unread
    · change outcome last (earlier ++ (reports ++ []))
      rwa [List.append_nil]

/-- A repetition yields what its last round does, if each round keeps a condition on what is held
and on the reports so far. -/
theorem Yields.repeating (held : σ → List Report → Prop)
    (hround : ∀ state earlier, held state earlier →
      (round state).Yields (Continues held outcome earlier))
    {state : σ} (hstate : held state []) : (Parser.repeating round state).Yields outcome :=
  fun unread => repeatFor_yields hround unread hstate unread

end Rounds

end Parser

/-- Each of some values meets a condition with its part of the reports, which follow one another as
the values do. -/
inductive Each (condition : α → List Report → Prop) : List α → List Report → Prop
  | nil : Each condition [] []
  | cons {first : α} {rest : List α} {earlier later : List Report} :
    condition first earlier → Each condition rest later →
    Each condition (first :: rest) (earlier ++ later)

/-- One more value behind the others. -/
theorem Each.snoc {condition : α → List Report → Prop} {items : List α} {last : α}
    {earlier later : List Report} (hitems : Each condition items earlier)
    (hlast : condition last later) : Each condition (items ++ [last]) (earlier ++ later) := by
  induction hitems with
  | nil =>
    have hone := Each.cons hlast .nil
    rwa [List.append_nil] at hone
  | cons hfirst _ ih => simpa only [List.cons_append, List.append_assoc] using Each.cons hfirst ih

/-- Values without reports have none together. -/
theorem Each.silent {condition : α → Prop} {items : List α} {reports : List Report}
    (hitems : Each (fun value reports => condition value ∧ reports = []) items reports) :
    (∀ value ∈ items, condition value) ∧ reports = [] := by
  induction hitems with
  | nil => exact ⟨List.forall_mem_nil _, rfl⟩
  | cons hfirst _ ih =>
    obtain ⟨hvalue, rfl⟩ := hfirst
    exact ⟨List.forall_mem_cons.mpr ⟨hvalue, ih.1⟩, ih.2⟩

namespace Parser

section Lists

variable {condition : α → List Report → Prop} {item : Parser α}

/-- What a list parser holds between its rounds: the items so far, the last one first, behind what
was reported before the rounds. -/
def Collected (condition : α → List Report → Prop) (earlier : List Report) (items : List α)
    (later : List Report) : Prop :=
  Each condition items.reverse (earlier ++ later)

/-- No item is held at first. -/
theorem Collected.nil : Collected condition [] [] [] := Each.nil

/-- One more item is held. -/
theorem Collected.again {earlier later last : List Report} {items : List α} {value : α}
    (hitems : Collected condition earlier items later) (hvalue : condition value last) :
    Collected condition earlier (value :: items) (later ++ last) := by
  have hmore := hitems.snoc hvalue
  rwa [List.append_assoc, ← List.reverse_cons] at hmore

/-- The items that are held when the rounds have ended. -/
theorem Collected.reverse {earlier later : List Report} {items : List α}
    (hitems : Collected condition earlier items later) :
    Each condition items.reverse (earlier ++ (later ++ [])) := by
  rwa [List.append_nil]

/-- The first item of a list is held before any round. -/
theorem Collected.first {earlier : List Report} {value : α} (hvalue : condition value earlier) :
    Collected condition earlier [value] [] := by
  have hone := Each.cons hvalue .nil
  exact hone

/-- Items with commas between them. -/
theorem Yields.separated (hitem : item.Yields condition) :
    (Parser.separated item).Yields (Each condition) := by
  unfold Parser.separated
  refine .bind hitem fun first earlier hfirst => ?_
  have hrounds : (Parser.repeating (nextItem item) [first]).Yields
      (Collected condition earlier) := by
    refine .repeating (Collected condition earlier) (fun items later hitems => ?_)
      (Collected.first hfirst)
    unfold nextItem
    refine (accept_silent _).either ?_ (.finish hitems)
    exact .bind hitem fun value last hvalue => .again (hitems.again hvalue)
  exact .bind hrounds fun items later hitems => .pure hitems.reverse

/-- Items with commas between them up to a closing mark. -/
theorem Yields.listed (hitem : item.Yields condition) (closing : String) :
    (Parser.listed item closing).Yields (Each condition) := by
  unfold Parser.listed
  refine (nextIsMark_silent _).either (.pure .nil) (.bind hitem fun first earlier hfirst => ?_)
  have hrounds : (Parser.repeating (nextListed item closing) [first]).Yields
      (Collected condition earlier) := by
    refine .repeating (Collected condition earlier) (fun items later hitems => ?_)
      (Collected.first hfirst)
    unfold nextListed
    refine (accept_silent _).either ?_ (.finish hitems)
    refine (nextIsMark_silent _).either (.finish hitems) ?_
    exact .bind hitem fun value last hvalue => .again (hitems.again hvalue)
  exact .bind hrounds fun items later hitems => .pure hitems.reverse

/-- Items with separators between them up to a closing mark or to the end, each of which keeps a
condition on those before it. -/
theorem Yields.upTo {item : List α → Parser α} (keeps : List α → Prop) (hnil : keeps [])
    (hitem : ∀ items, keeps items →
      (item items).Yields fun value reports => condition value reports ∧ keeps (value :: items))
    (separators : List String) (closing : String) :
    (Parser.upTo item separators closing).Yields fun items reports =>
      Each condition items reports ∧ keeps items.reverse := by
  unfold Parser.upTo
  have hrounds : (Parser.repeating (nextUpTo item separators closing) []).Yields
      fun items reports => Collected condition [] items reports ∧ keeps items := by
    refine .repeating (fun items reports => Collected condition [] items reports ∧ keeps items)
      (fun items earlier hitems => ?_) ⟨Collected.nil, hnil⟩
    unfold nextUpTo
    refine (nextIsMark_silent _).either (.finish hitems) (atEnd_silent.either (.finish hitems) ?_)
    refine .bind (hitem items hitems.2) fun value last hvalue => ?_
    have hmore := And.intro (hitems.1.again hvalue.1) hvalue.2
    exact (accept_silent _).either (.again hmore) (.pure (by simpa [Continues] using hmore))
  refine .bind hrounds fun items reports hitems => .pure ⟨hitems.1.reverse, ?_⟩
  rw [List.reverse_reverse]
  exact hitems.2

end Lists

end Parser

end BraceLang
