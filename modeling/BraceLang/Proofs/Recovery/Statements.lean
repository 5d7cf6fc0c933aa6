import BraceLang.Proofs.Recovery.Expressions

/-!
# Statements in a stretch

Blocks, fields and parameters need brackets, so a statement that asks for them fails in a stretch,
or before the program behind it. Any other statement ends in a semicolon, which the program does not
begin with. Once a failed statement is recovered and a lexeme is passed where nothing was read,
parsing goes on in the stretch or at the beginning of the program.
-/

namespace BraceLang

open BraceLang.Parser

variable {α : Type} {program : List Lexeme} {options : Options} {layer : Layer}

namespace Parser

/-- The end of a statement is in the stretch. -/
theorem terminator_brings (hbegun : WellBegun program) :
    terminator.Brings program (Reached program) fun _ => Reached program := by
  rintro unread (hstretch | rfl)
  · unfold terminator
    rw [expectMark_apply]
    split
    · obtain ⟨lexeme, rest, rfl⟩ := hstretch.exists_cons
      exact hstretch.behind
    · exact .inl hstretch
  · rw [terminator, expectMark_apply, hbegun.head_any (by decide)]
    exact .inr rfl

/-- No brace is next, neither in the stretch nor in the program behind it. -/
theorem block_brings (hbegun : WellBegun program) :
    (block (some layer)).Brings program (Reached program) fun _ _ => False := by
  have hopening : (expectMark "\x7b" .blockOpening).Brings program (Reached program)
      fun _ _ => False := by
    rintro unread (hstretch | rfl)
    · exact expectMark_never (by decide) _ unread hstretch
    · rw [expectMark_apply, hbegun.head_any (by decide)]
      exact .inr rfl
  have hbody : (nested (some layer) fun layer => do
      expectMark "\x7b" .blockOpening
      statements layer.statement ["\x7d"]).Brings program (Reached program) fun _ _ => False :=
    .bind hopening fun _ => .never fun _ => id
  exact .bind hbody fun _ => .never fun _ => id

end Parser

namespace InsideHalts

variable (hinside : InsideHalts program (some layer)) (hbegun : WellBegun program)
include hinside hbegun

/-- A declaration takes the stretch at most. -/
theorem declaration (binding : Binding) :
    (Parser.declaration (some layer) binding).Halts program := by
  unfold Parser.declaration
  refine .bind (identifier_stays _) fun name => .bind hinside.annotation fun type => ?_
  refine .bind (expectMark_stays (by decide) _) fun _ => .no ?_ ?_
  · intro unread hunread
    refine ⟨?_, hunread⟩
    rw [hunread.head_any (by decide), Bool.false_and]
  · refine .bind (hinside.expression hbegun true) fun value => ?_
    exact .bind (terminator_brings hbegun) fun _ => .pure fun _ => id

/-- A condition and its block. -/
theorem branch : (Parser.branch (some layer)).Brings program (Stretch program) fun _ _ => False := by
  refine .bind (hinside.expression hbegun false) fun condition => ?_
  exact .bind (block_brings hbegun) fun body => .never fun _ => id

/-- A conditional has its condition in the stretch, which opens no block for it. -/
theorem conditional : (Parser.conditional (some layer)).Halts program :=
  .bind (hinside.branch hbegun) fun _ => .never fun _ => id

/-- Neither does it open one for a loop. -/
theorem whileLoop : (Parser.whileLoop (some layer)).Halts program := by
  refine .bind (hinside.expression hbegun false) fun condition => ?_
  exact .bind (block_brings hbegun) fun body => .never fun _ => id

/-- A counted loop begins with a header that a stretch cannot hold. -/
theorem forLoop : (Parser.forLoop (some layer)).Halts program := by
  have hbinding : binding.Stays program := by
    intro unread hunread
    unfold binding
    rw [nextIsWord_bind]
    split
    · next hword => exact hunread.tail_of_head hword fun _ => Lexeme.isMarkOf_of_isWordOf
    · rw [nextIsWord_bind]
      split
      · next hword => exact hunread.tail_of_head hword fun _ => Lexeme.isMarkOf_of_isWordOf
      · exact .inl hunread
  refine .bind hbinding fun _ => .bind (identifier_stays _) fun _ => ?_
  refine .bind (expectWord_stays _ _) fun _ => .bind (hinside.expression hbegun false) fun _ => ?_
  exact .bind (block_brings hbegun) fun _ => .never fun _ => id

/-- A `return` may take the semicolon as its value, which is none. -/
theorem returnValue : (Parser.returnValue (some layer)).Halts program := by
  intro unread hunread
  unfold Parser.returnValue
  rw [nextIsMark_bind]
  split
  · refine Brings.bind (terminator_brings hbegun) (fun _ => ?_) _ (.inl hunread)
    exact .pure fun _ => id
  · refine Brings.bind (hinside.expression hbegun true) (fun _ => ?_) _ hunread
    exact .bind (terminator_brings hbegun) fun _ => .pure fun _ => id

omit hinside hbegun in

/-- A struct ends before the block of its fields. -/
theorem struct : (Parser.struct (some layer)).Halts program := by
  refine .bind (identifier_stays _) fun name => ?_
  exact .bind (expectMark_never (by decide) _) fun _ => .never fun _ => id

omit hinside hbegun in

/-- What can be called ends before its parameters. -/
theorem callable (expected : Expected) (stated : Bool) :
    (Parser.callable (some layer) expected stated).Halts program := by
  have hparameters : (Parser.parameters (some layer)).Brings program (Stretch program)
      fun _ _ => False :=
    .bind (expectMark_never (by decide) _) fun _ => .never fun _ => id
  exact .bind (identifier_stays _) fun _ => .bind hparameters fun _ => .never fun _ => id

omit hinside hbegun in

/-- An `impl` ends before the block of its methods. -/
theorem impl : (Parser.impl options (some layer)).Halts program := by
  refine .bind (identifier_stays _) fun name => ?_
  exact .bind (expectMark_never (by decide) _) fun _ => .never fun _ => id

/-- An expression takes the semicolon behind it at most. -/
theorem expressionStatement : (Parser.expressionStatement (some layer)).Halts program := by
  refine .bind (hinside.expression hbegun true) fun value => ?_
  exact .bind (terminator_brings hbegun) fun _ => .pure fun _ => id

/-- So a statement that begins with a keyword takes the stretch at most. -/
theorem behindWord {word : String} {parser : Parser Statement}
    (hword : Parser.behindWord options (some layer) word = some parser) :
    parser.Halts program := by
  have hclosed (statement : Statement) : (Parser.closed statement).Halts program :=
    .bind (fun unread hunread => terminator_brings hbegun unread (.inl hunread)) fun _ =>
      .pure fun _ => id
  cases hword using Parser.behindWord_cases with
  | declaration binding => exact hinside.declaration hbegun binding
  | conditional => exact hinside.conditional hbegun
  | whileLoop => exact hinside.whileLoop hbegun
  | forLoop => exact hinside.forLoop hbegun
  | breakLoop => exact hclosed .breakLoop
  | continueLoop => exact hclosed .continueLoop
  | returnValue => exact hinside.returnValue hbegun
  | struct => exact struct
  | impl => exact impl
  | function => exact .bind (callable _ _) fun _ => .pure fun _ => id

/-- So does every statement. -/
theorem statement : (Parser.statement options (some layer)).Halts program := by
  intro unread hunread
  obtain ⟨lexeme, rest, rfl⟩ := hunread.exists_cons
  unfold Parser.statement
  rw [peek_bind]
  dsimp only [List.head?_cons]
  split
  · next hword =>
    cases hparser : Parser.behindWord options (some layer) lexeme.text with
    | none => exact hinside.expressionStatement hbegun _ hunread
    | some parser =>
      refine Brings.bind advance_brings (fun _ => hinside.behindWord hbegun hparser) _ ?_
      exact hunread.goesOn (Lexeme.isMarkOf_of_isWord hword)
  · exact hinside.expressionStatement hbegun _ hunread

end InsideHalts

/-- Behind a lexeme that is passed where nothing was read parsing goes on in the stretch, or at the
beginning of the program. -/
theorem Stretch.passed {unread rest : List Lexeme} (hunread : Stretch program unread)
    (hrest : Reached program rest) :
    Reached program (if rest.length < unread.length then rest else rest.tail) := by
  split
  · exact hrest
  · next hlength =>
    rcases hrest with hstretch | rfl
    · obtain ⟨lexeme, left, rfl⟩ := hstretch.exists_cons
      exact hstretch.behind
    · exact absurd hunread.length_lt hlength

/-- A statement that is recovered where it fails. -/
theorem Parser.Brings.passing_recovered {parser : Parser Statement}
    (hparser : parser.Halts program) : (passing (recovered parser)).Halts program := by
  intro unread hunread
  have hreply := hparser unread hunread
  unfold passing recovered
  cases hrun : parser unread with
  | done | failed =>
    rw [hrun] at hreply
    exact hunread.passed hreply
  | stopped => trivial

/-- Every layer takes nothing from the program, from the innermost one outwards. -/
theorem layerInside_halts (hbegun : WellBegun program) (options : Options) (levels : Nat) :
    InsideHalts program (layerInside options levels) := by
  induction levels with
  | zero => exact fun layer hlayer => nomatch hlayer
  | succ levels ih =>
    rintro layer ⟨⟩
    exact ⟨ih.type, ih.operand hbegun⟩

end BraceLang
