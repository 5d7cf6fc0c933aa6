import BraceLang.Proofs.Parsing.Steps

/-!
# Stretches up to a semicolon

A stretch is a row of lexemes without brackets that ends in a semicolon. Behind it stands a program
that is well begun: its first lexeme can neither go on with an expression nor end a statement.
However a parser fares on the stretch, it takes nothing from the program: either a part of the
stretch is still unread, or the parser comes to the program and no further.
-/

namespace BraceLang

variable {α β σ : Type} {program unread rest : List Lexeme} {lexeme : Lexeme}

/-- The marks of brackets. -/
def brackets : List String := openers ++ closers

/-- A part of a stretch and the program behind it. -/
inductive Stretch (program : List Lexeme) : List Lexeme → Prop
  | last {semicolon : Lexeme} : semicolon.isMarkOf [";"] = true →
    Stretch program (semicolon :: program)
  | cons {lexeme : Lexeme} {rest : List Lexeme} : lexeme.isMarkOf brackets = false →
    Stretch program rest → Stretch program (lexeme :: rest)

/-- A part of a stretch with the program behind it, or the program alone. -/
def Reached (program unread : List Lexeme) : Prop := Stretch program unread ∨ unread = program

/-- The marks that end a statement, open a block or go on with an expression. -/
def continuingMarks : List String :=
  [";", "\x7b", "::"] ++ BinaryOperator.all.map BinaryOperator.spelling

/-- A program whose first lexeme, if it has one, is no mark that goes on with what is before it. -/
def WellBegun (program : List Lexeme) : Prop :=
  ∀ lexeme ∈ program.head?, lexeme.isMarkOf continuingMarks = false

namespace Stretch

/-- A stretch is not empty. -/
theorem exists_cons (hunread : Stretch program unread) :
    ∃ lexeme rest, unread = lexeme :: rest := by
  cases hunread <;> exact ⟨_, _, rfl⟩

/-- The first lexeme of a stretch is no bracket. -/
theorem noBracket (hunread : Stretch program (lexeme :: rest)) :
    lexeme.isMarkOf brackets = false := by
  cases hunread with
  | last hsemicolon => exact Lexeme.isMarkOf_disjoint hsemicolon (by decide)
  | cons hbracket _ => exact hbracket

/-- No bracket is next in a stretch. -/
theorem head_any (hunread : Stretch program unread) {marks : List String}
    (hmarks : marks ⊆ brackets) : unread.head?.any (·.isMarkOf marks) = false := by
  obtain ⟨lexeme, rest, rfl⟩ := hunread.exists_cons
  refine Bool.eq_false_iff.mpr fun hmark => ?_
  have hbracket := Lexeme.isMarkOf_subset (by simpa using hmark) hmarks
  rw [hunread.noBracket] at hbracket
  cases hbracket

/-- Behind the first lexeme stands the rest of the stretch, or the program. -/
theorem behind (hunread : Stretch program (lexeme :: rest)) : Reached program rest := by
  cases hunread with
  | last _ => exact .inr rfl
  | cons _ hrest => exact .inl hrest

/-- Behind another lexeme than a semicolon the stretch goes on. -/
theorem goesOn (hunread : Stretch program (lexeme :: rest))
    (hother : lexeme.isMarkOf [";"] = false) : Stretch program rest := by
  cases hunread with
  | last hsemicolon =>
    rw [hother] at hsemicolon
    cases hsemicolon
  | cons _ hrest => exact hrest

/-- Behind a lexeme that passes a test which no semicolon passes the stretch goes on. -/
theorem tail_of_head (hunread : Stretch program unread) {test : Lexeme → Bool}
    (hhead : unread.head?.any test = true)
    (hother : ∀ lexeme, test lexeme = true → lexeme.isMarkOf [";"] = false) :
    Stretch program unread.tail := by
  obtain ⟨lexeme, rest, rfl, htest⟩ := Parser.exists_cons_of_head_any hhead
  exact hunread.goesOn (hother lexeme htest)

/-- No group begins in a stretch. -/
theorem behindGroup (hunread : Stretch program unread) : behindGroup unread = unread := by
  obtain ⟨lexeme, rest, rfl⟩ := hunread.exists_cons
  have hopener := hunread.head_any (List.subset_append_left openers closers)
  rw [List.head?_cons, Option.any_some] at hopener
  rw [BraceLang.behindGroup, if_neg (by simp [hopener])]

/-- A stretch is longer than the program behind it. -/
theorem length_lt (hunread : Stretch program unread) : program.length < unread.length := by
  induction hunread with
  | last _ => exact Nat.lt_succ_self _
  | cons _ _ ih => exact Nat.lt_succ_of_lt ih

/-- A row without brackets and a semicolon are a stretch. -/
theorem of_append {row : List Lexeme} {semicolon : Lexeme}
    (hrow : ∀ lexeme ∈ row, lexeme.isMarkOf brackets = false)
    (hsemicolon : semicolon.isMarkOf [";"] = true) :
    Stretch program (row ++ semicolon :: program) := by
  induction row with
  | nil => exact .last hsemicolon
  | cons first others ih =>
    obtain ⟨hfirst, hothers⟩ := List.forall_mem_cons.mp hrow
    exact .cons hfirst (ih hothers)

end Stretch

/-- A mark that goes on with what is before it is not next in a program that is well begun. -/
theorem WellBegun.head_any (hbegun : WellBegun program) {marks : List String}
    (hmarks : marks ⊆ continuingMarks) : program.head?.any (·.isMarkOf marks) = false := by
  refine Bool.eq_false_iff.mpr fun hmark => ?_
  obtain ⟨lexeme, rest, rfl, hlexeme⟩ := Parser.exists_cons_of_head_any hmark
  have hcontinuing := Lexeme.isMarkOf_subset hlexeme hmarks
  rw [hbegun lexeme rfl] at hcontinuing
  cases hcontinuing

/-- What is reached is not shorter than the program. -/
theorem Reached.length_le (hunread : Reached program unread) : program.length ≤ unread.length := by
  rcases hunread with hstretch | rfl
  · exact Nat.le_of_lt hstretch.length_lt
  · exact Nat.le_refl _

/-- A mark that goes on with an expression or opens a block is not next in a program that is well
begun, so it is in the stretch, and the stretch goes on behind it if it is no semicolon. -/
theorem Reached.of_mark (hbegun : WellBegun program) (hunread : Reached program unread)
    {marks : List String} (hmark : unread.head?.any (·.isMarkOf marks) = true)
    (hmarks : marks ⊆ continuingMarks) (hother : ";" ∉ marks) :
    Stretch program unread.tail := by
  rcases hunread with hstretch | rfl
  · exact hstretch.tail_of_head hmark fun _ hlexeme => Lexeme.isMarkOf_semicolon hlexeme hother
  · rw [hbegun.head_any hmarks] at hmark
    cases hmark

/-- A reply that meets a goal if it has a value. If it has none, it takes nothing from the program
either. -/
def Reply.Lands (program : List Lexeme) (goal : α → List Lexeme → Prop) : Reply α → Prop
  | .done value rest _ => goal value rest
  | .failed _ rest _ => Reached program rest
  | .stopped _ => True

/-- Reports in front of a reply do not matter. -/
theorem Reply.Lands.after {reply : Reply α} {goal : α → List Lexeme → Prop}
    (hreply : reply.Lands program goal) (reports : List Report) :
    (reply.after reports).Lands program goal := by
  cases reply <;> exact hreply

namespace Parser

/-- A parser that leads from what is unread at first to a goal. -/
def Brings (program : List Lexeme) (start : List Lexeme → Prop) (goal : α → List Lexeme → Prop)
    (parser : Parser α) : Prop :=
  ∀ unread, start unread → (parser unread).Lands program goal

/-- A parser that comes to a value before the stretch ends. -/
abbrev Stays (program : List Lexeme) (parser : Parser α) : Prop :=
  parser.Brings program (Stretch program) fun _ => Stretch program

/-- A parser that may take the stretch to its end, and no more. -/
abbrev Halts (program : List Lexeme) (parser : Parser α) : Prop :=
  parser.Brings program (Stretch program) fun _ => Reached program

namespace Brings

variable {start : List Lexeme → Prop} {parser : Parser α} {next : α → Parser β}
  {first goal weaker : α → List Lexeme → Prop} {last : β → List Lexeme → Prop}

/-- A parser leads to every weaker goal. -/
theorem mono (hparser : parser.Brings program start goal)
    (hweaker : ∀ value rest, goal value rest → weaker value rest) :
    parser.Brings program start weaker := by
  intro unread hunread
  have hreply := hparser unread hunread
  cases hrun : parser unread with
  | done value rest reports =>
    rw [hrun] at hreply
    exact hweaker value rest hreply
  | failed report rest reports =>
    rw [hrun] at hreply
    exact hreply
  | stopped => trivial

/-- What leads on from where a parser leads to. -/
theorem bind (hparser : parser.Brings program start first)
    (hnext : ∀ value, (next value).Brings program (first value) last) :
    (parser >>= next).Brings program start last := by
  intro unread hunread
  have hreply := hparser unread hunread
  cases hrun : parser unread with
  | done value rest reports =>
    rw [hrun] at hreply
    rw [bind_of_done next hrun]
    exact (hnext value rest hreply).after reports
  | failed report rest reports =>
    rw [hrun] at hreply
    rw [bind_of_failed next hrun]
    exact hreply
  | stopped halt =>
    rw [bind_of_stopped next hrun]
    trivial

/-- A value for which nothing is read. -/
theorem pure {value : α} (hvalue : ∀ rest, start rest → goal value rest) :
    (Pure.pure value : Parser α).Brings program start goal :=
  hvalue

/-- What cannot be reached leads anywhere. -/
theorem never (hnever : ∀ unread, ¬start unread) : parser.Brings program start goal :=
  fun unread hunread => absurd hunread (hnever unread)

/-- Behind a question that is always answered with no. -/
theorem no {question : Parser Bool} {yes no : Parser α}
    (hquestion : question.Brings program start fun answer rest => answer = false ∧ start rest)
    (hno : no.Brings program start goal) :
    (question >>= fun answer => if answer = true then yes else no).Brings program start goal := by
  refine hquestion.bind fun answer unread hunread => ?_
  obtain ⟨rfl, hunread⟩ := hunread
  exact hno unread hunread

/-- Either way behind a question. -/
theorem either {question : Parser Bool} {yes no : Parser α} {asked : Bool → List Lexeme → Prop}
    (hquestion : question.Brings program start asked)
    (hyes : yes.Brings program (asked true) goal) (hno : no.Brings program (asked false) goal) :
    (question >>= fun answer => if answer = true then yes else no).Brings program start goal := by
  refine hquestion.bind fun answer => ?_
  cases answer with
  | true => exact hyes
  | false => exact hno

section Rounds

variable {round : σ → Parser (Turn σ)} {finished : σ → List Lexeme → Prop}

/-- Where a round leads to: back to the start if it goes on. -/
def Turning (start : List Lexeme → Prop) (finished : σ → List Lexeme → Prop) (turn : Turn σ)
    (rest : List Lexeme) : Prop :=
  match turn with
  | .again _ => start rest
  | .finish last => finished last rest

/-- A bounded repetition leads to where its last round leads. -/
private theorem repeatFor
    (hround : ∀ state, (round state).Brings program start (Turning start finished))
    (rounds : List Lexeme) (state : σ) :
    Brings program start finished (Parser.repeatFor round rounds state) := by
  induction rounds generalizing state with
  | nil =>
    refine bind (hround state) ?_
    rintro (next | last) unread hunread
    · trivial
    · exact hunread
  | cons lexeme rounds ih =>
    refine bind (hround state) ?_
    rintro (next | last) unread hunread
    · exact ih next unread hunread
    · exact hunread

/-- A repetition leads where its last round does if the others lead back to the start. -/
theorem repeating
    (hround : ∀ state, (round state).Brings program start (Turning start finished)) (state : σ) :
    (Parser.repeating round state).Brings program start finished :=
  fun unread => repeatFor hround unread state unread

end Rounds

end Brings

end Parser

end BraceLang
