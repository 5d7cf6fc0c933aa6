import BraceLang.Proofs.Construction.Expressions
import BraceLang.Proofs.Nesting.Composed
import BraceLang.Proofs.Outline.Basic

/-!
# What parsers gather from given lexemes

A parser gathers what meets a condition if its values do wherever all that is unread is given, and
if it leaves nothing else behind it, failing or not. So the condition may speak of the lexemes that
a value was read from, and it does not have to say where in the input they are.
-/

namespace BraceLang

open BraceLang.Parser

variable {α β σ : Type} {given : Lexeme → Prop}

/-- A reply whose value, if there is one, meets a condition, and behind which only given lexemes are
unread. -/
def Reply.Gathered (given : Lexeme → Prop) (condition : α → Prop) : Reply α → Prop
  | .done value rest _ => condition value ∧ ∀ lexeme ∈ rest, given lexeme
  | .failed _ rest _ => ∀ lexeme ∈ rest, given lexeme
  | .stopped _ => True

/-- Reports in front change neither the value nor what is unread. -/
theorem Reply.Gathered.after {condition : α → Prop} {reply : Reply α}
    (hreply : reply.Gathered given condition) (reports : List Report) :
    (reply.after reports).Gathered given condition := by
  cases reply <;> exact hreply

namespace Parser

/-- From given lexemes a parser comes to values that meet a condition, and to given lexemes. -/
def Gathers (given : Lexeme → Prop) (parser : Parser α) (condition : α → Prop) : Prop :=
  ∀ unread, (∀ lexeme ∈ unread, given lexeme) → (parser unread).Gathered given condition

namespace Gathers

variable {parser : Parser α} {next : α → Parser β} {condition first : α → Prop}
  {outcome : β → Prop}

/-- A parser that goes by steps leaves given lexemes behind it, so that it gathers whatever it
yields. -/
theorem of_yields (hruns : parser.Runs) (hyields : parser.Yields fun value _ => condition value) :
    parser.Gathers given condition := by
  intro unread hgiven
  have hrun := hruns unread
  have hvalue := hyields unread
  cases hreply : parser unread with
  | done value rest reports =>
    rw [hreply] at hrun hvalue
    exact ⟨hvalue, fun lexeme hmem => hgiven lexeme (hrun.suffix.subset hmem)⟩
  | failed report rest reports =>
    rw [hreply] at hrun
    exact fun lexeme hmem => hgiven lexeme (hrun.suffix.subset hmem)
  | stopped halt => trivial

/-- A parser of which only the steps are of interest. -/
theorem of_runs (hruns : parser.Runs) : parser.Gathers given fun _ => True := by
  refine of_yields hruns fun unread => ?_
  cases parser unread <;> trivial

/-- What meets a condition meets every weaker one. -/
theorem mono {weaker : α → Prop} (hparser : parser.Gathers given condition)
    (hweaker : ∀ value, condition value → weaker value) : parser.Gathers given weaker := by
  intro unread hgiven
  have hreply := hparser unread hgiven
  cases hrun : parser unread with
  | done value rest reports =>
    rw [hrun] at hreply
    exact ⟨hweaker value hreply.1, hreply.2⟩
  | failed report rest reports =>
    rw [hrun] at hreply
    exact hreply
  | stopped halt => trivial

/-- A value that meets the condition. -/
theorem pure {value : α} (hvalue : condition value) :
    (Pure.pure value : Parser α).Gathers given condition :=
  fun _ hgiven => ⟨hvalue, hgiven⟩

/-- A failure comes to no value. -/
theorem reject (expected : Expected) : (Parser.reject expected : Parser α).Gathers given condition :=
  fun _ hgiven => hgiven

/-- What follows a value is gathered from what is left. -/
theorem bind (hparser : parser.Gathers given first)
    (hnext : ∀ value, first value → (next value).Gathers given outcome) :
    (parser >>= next).Gathers given outcome := by
  intro unread hgiven
  have hreply := hparser unread hgiven
  cases hrun : parser unread with
  | done value rest reports =>
    rw [hrun] at hreply
    rw [bind_of_done next hrun]
    exact (hnext value hreply.1 rest hreply.2).after reports
  | failed report rest reports =>
    rw [hrun] at hreply
    rw [bind_of_failed next hrun]
    exact hreply
  | stopped halt =>
    rw [bind_of_stopped next hrun]
    trivial

/-- What follows a parser of which only the steps are of interest. -/
theorem behind (hruns : parser.Runs) (hnext : ∀ value, (next value).Gathers given outcome) :
    (parser >>= next).Gathers given outcome :=
  (of_runs hruns).bind fun value _ => hnext value

/-- Either way behind a question. -/
theorem either {question : Parser Bool} {yes no : Parser β} (hquestion : question.Runs)
    (hyes : yes.Gathers given outcome) (hno : no.Gathers given outcome) :
    (question >>= fun answer => if answer = true then yes else no).Gathers given outcome := by
  refine behind hquestion fun answer => ?_
  split
  · exact hyes
  · exact hno

/-- A value that is made into another one. -/
theorem returning {make : α → β} (hparser : parser.Gathers given first)
    (hmake : ∀ value, first value → outcome (make value)) :
    (parser >>= fun value => Pure.pure (make value)).Gathers given outcome :=
  hparser.bind fun value hvalue => .pure (hmake value hvalue)

/-- A value that is made into another one behind what closes it. -/
theorem closing {γ : Type} {make : α → β} {last : Parser γ} (hparser : parser.Gathers given first)
    (hlast : last.Runs) (hmake : ∀ value, first value → outcome (make value)) :
    (parser >>= fun value => last >>= fun _ => Pure.pure (make value)).Gathers given outcome :=
  hparser.bind fun value hvalue => .behind hlast fun _ => .pure (hmake value hvalue)

/-- The lexeme that is next is given. -/
theorem look {next : Option Lexeme → Parser β} (hend : (next none).Gathers given outcome)
    (hlexeme : ∀ lexeme, given lexeme → (next (some lexeme)).Gathers given outcome) :
    (peek >>= next).Gathers given outcome := by
  intro unread hgiven
  rw [peek_bind]
  cases unread with
  | nil => exact hend [] hgiven
  | cons lexeme rest => exact hlexeme lexeme (hgiven lexeme List.mem_cons_self) _ hgiven

/-- A numeral is read as what it says. -/
theorem numeral (text : String) :
    (Parser.numeral text).Gathers given fun value => Numeral.read text = .ok value := by
  intro unread hgiven
  unfold Parser.numeral
  cases hread : Numeral.read text with
  | ok value => exact ⟨rfl, fun lexeme hmem => hgiven lexeme (List.mem_of_mem_tail hmem)⟩
  | error error => trivial

section Rounds

variable {round : σ → Parser (Turn σ)} {held last : σ → Prop}

/-- What a round has to gather: what is held if it goes on, and the outcome if it is the last. -/
def Turned (held last : σ → Prop) : Turn σ → Prop
  | .again state => held state
  | .finish state => last state

/-- A bounded repetition gathers what its last round hands on. -/
private theorem repeatFor
    (hround : ∀ state, held state → (round state).Gathers given (Turned held last))
    (rounds : List Lexeme) {state : σ} (hstate : held state) :
    (Parser.repeatFor round rounds state).Gathers given last := by
  induction rounds generalizing state with
  | nil =>
    refine bind (hround state hstate) ?_
    rintro (next | value) hturn
    · exact fun _ _ => trivial
    · exact .pure hturn
  | cons lexeme rounds ih =>
    refine bind (hround state hstate) ?_
    rintro (next | value) hturn
    · exact ih hturn
    · exact .pure hturn

/-- A repetition gathers what its last round does, if each round keeps a condition on what is
held. -/
theorem repeating (held : σ → Prop)
    (hround : ∀ state, held state → (round state).Gathers given (Turned held last))
    {state : σ} (hstate : held state) : (Parser.repeating round state).Gathers given last :=
  fun unread => repeatFor hround unread hstate unread

end Rounds

section Lists

variable {item : Parser α}

/-- Items that are collected in front of one another and turned round in the end. -/
theorem collecting {round : List α → Parser (Turn (List α))}
    (hround : ∀ items, (∀ item ∈ items, condition item) →
      (round items).Gathers given
        (Turned (fun items => ∀ item ∈ items, condition item)
          fun items => ∀ item ∈ items, condition item))
    {start : List α} (hstart : ∀ item ∈ start, condition item) :
    (Parser.repeating round start >>= fun items => Pure.pure items.reverse).Gathers given
      fun items => ∀ item ∈ items, condition item :=
  .returning (.repeating _ hround hstart) fun _ hitems item hmem =>
    hitems item (List.mem_reverse.mp hmem)

/-- Items with commas between them up to a closing mark. -/
theorem listed (hitem : item.Gathers given condition) (closing : String) :
    (Parser.listed item closing).Gathers given fun items => ∀ item ∈ items, condition item := by
  unfold Parser.listed
  refine .either (nextIsMark_runs _) (.pure (List.forall_mem_nil _)) (hitem.bind fun one hone => ?_)
  refine .collecting (fun items hitems => ?_) (List.forall_mem_singleton.mpr hone)
  unfold nextListed
  refine .either (accept_runs _) (.either (nextIsMark_runs _) (.pure hitems) ?_) (.pure hitems)
  exact hitem.returning fun value hvalue => List.forall_mem_cons.mpr ⟨hvalue, hitems⟩

/-- Items with separators between them up to a closing mark or to the end. -/
theorem upTo {item : List α → Parser α} (hitem : ∀ items, (item items).Gathers given condition)
    (separators : List String) (closing : String) :
    (Parser.upTo item separators closing).Gathers given fun items =>
      ∀ item ∈ items, condition item := by
  unfold Parser.upTo
  refine .collecting (fun items hitems => ?_) (List.forall_mem_nil _)
  unfold nextUpTo
  refine .either (nextIsMark_runs _) (.pure hitems) (.either atEnd_runs (.pure hitems) ?_)
  refine (hitem items).bind fun value hvalue => ?_
  have hmore := List.forall_mem_cons.mpr ⟨hvalue, hitems⟩
  exact .either (accept_runs _) (.pure hmore) (.pure hmore)

end Lists

/-- A statement that fails is gathered as the complaint about it. -/
theorem recovered {statement : Parser Statement} {condition : Statement → Prop}
    (hstatement : statement.Gathers given condition)
    (herror : ∀ complaint, condition (.error complaint)) :
    (Parser.recovered statement).Gathers given condition := by
  intro unread hgiven
  have hreply := hstatement unread hgiven
  unfold Parser.recovered
  cases hrun : statement unread with
  | done value rest reports =>
    rw [hrun] at hreply
    exact hreply
  | failed report rest reports =>
    rw [hrun] at hreply
    exact ⟨herror report.complaint, hreply⟩
  | stopped halt => trivial

/-- Passing a lexeme leaves fewer of those that are given. -/
theorem passing (hparser : parser.Gathers given condition) :
    (Parser.passing parser).Gathers given condition := by
  intro unread hgiven
  have hreply := hparser unread hgiven
  unfold Parser.passing
  cases hrun : parser unread with
  | done value rest reports =>
    rw [hrun] at hreply
    refine ⟨hreply.1, fun lexeme hmem => hreply.2 lexeme ?_⟩
    split at hmem
    · exact hmem
    · exact List.mem_of_mem_tail hmem
  | failed report rest reports =>
    rw [hrun] at hreply
    exact hreply
  | stopped halt => trivial

/-- Statements up to one of some marks or to the end. -/
theorem statements {statement : Parser Statement} {condition : Statement → Prop}
    (hstatement : statement.Gathers given condition)
    (herror : ∀ complaint, condition (.error complaint)) (closing : List String) :
    (Parser.statements statement closing).Gathers given fun items =>
      ∀ item ∈ items, condition item := by
  unfold Parser.statements
  refine .collecting (fun items hitems => ?_) (List.forall_mem_nil _)
  unfold nextStatement
  refine .either atEnd_runs (.pure hitems) (.either (nextIsMark_runs _) (.pure hitems) ?_)
  exact (hstatement.recovered herror).passing.returning fun value hvalue =>
    List.forall_mem_cons.mpr ⟨hvalue, hitems⟩

end Gathers

end Parser

end BraceLang
