import BraceLang.Proofs.Lockstep.Expressions

/-!
# Statements in step

A statement ends with a semicolon or with a brace. So what it leaves is paired, or it leaves nothing
behind its semicolon. By induction on the layers every statement is in step.
-/

namespace BraceLang

open BraceLang.Parser

namespace InsideInStep

variable {pairing : Pairing} {options : Options} {inside : Option Layer}
  (hinside : InsideInStep pairing inside)
include hinside

omit hinside in
/-- A statement of one word may leave nothing behind its semicolon. -/
theorem closed (statement : Statement) : Ends pairing (Parser.closed statement) :=
  terminator_ends.bind fun _ => .pure _

/-- So may a declaration. -/
theorem declaration (binding : Binding) : Ends pairing (Parser.declaration inside binding) := by
  unfold Parser.declaration
  refine (identifier_keeps _).bind fun name => hinside.annotation.bind fun type => ?_
  refine (expectMark_keeps (by decide) _).bind fun _ => .onFunctionValue ?_ ?_
  · exact hinside.functionValue.bind fun _ =>
      atEnd_keeps.either (Keeps.ends (.pure _)) (terminator_ends.bind fun _ => .pure _)
  · exact (hinside.expression true).bind fun _ => terminator_ends.bind fun _ => .pure _

/-- A branch is read in step. -/
theorem branch : Keeps pairing (Parser.branch inside) :=
  (hinside.expression false).bind fun _ => hinside.block.bind fun _ => .pure _

/-- So is a conditional statement. -/
theorem conditional : Keeps pairing (Parser.conditional inside) := by
  unfold Parser.conditional
  refine hinside.branch.bind fun first => .bind (.repeating (fun others => ?_) _) fun _ => .pure _
  refine .onWord (advance_within.bind fun _ => ?_) (.pure _)
  exact .onWord (advance_within.bind fun _ => hinside.branch.bind fun _ => .pure _)
    (hinside.block.bind fun _ => .pure _)

/-- So is a loop over a condition. -/
theorem whileLoop : Keeps pairing (Parser.whileLoop inside) :=
  (hinside.expression false).bind fun _ => hinside.block.bind fun _ => .pure _

/-- So is a loop over the items of something. -/
theorem forLoop : Keeps pairing (Parser.forLoop inside) := by
  have hbinding : Keeps pairing binding :=
    .onWord (advance_within.bind fun _ => .pure _) <|
      .onWord (advance_within.bind fun _ => .pure _) <|
        .of_faulty fun _ _ _ hdone => nomatch hdone
  refine hbinding.bind fun binding => (identifier_keeps _).bind fun name => ?_
  refine (expectWord_keeps _ _).bind fun _ => (hinside.expression false).bind fun value => ?_
  exact hinside.block.bind fun body => .pure _

/-- A return may leave nothing behind its semicolon. -/
theorem returnValue : Ends pairing (Parser.returnValue inside) := by
  refine (nextIsMark_keeps _).either (terminator_ends.bind fun _ => .pure _) ?_
  exact (hinside.expression true).bind fun value => terminator_ends.bind fun _ => .pure _

/-- The field of a struct is read in step. -/
theorem structField : Keeps pairing (Parser.structField inside) := by
  refine (identifier_keeps _).bind fun name => (expectMark_keeps (by decide) _).bind fun _ => ?_
  exact hinside.type.bind fun type => .pure _

/-- So is a struct. -/
theorem struct : Keeps pairing (Parser.struct inside) := by
  refine (identifier_keeps _).bind fun name => (expectMark_keeps (by decide) _).bind fun _ => ?_
  refine KeepsSome.closed "\x7d" (.upTo (fun fields => ?_) _ _) (by decide) fun _ => .pure _
  exact hinside.structField

/-- So is a parameter. -/
theorem parameter : Keeps pairing (Parser.parameter inside) :=
  (identifier_keeps _).bind fun _ => hinside.annotation.bind fun _ => .pure _

/-- So is what a function returns. -/
theorem returnType (stated : Bool) : Keeps pairing (Parser.returnType inside stated) := by
  unfold Parser.returnType
  refine (accept_keeps (by decide)).either (hinside.type.bind fun _ => .pure _) ?_
  split
  · exact .of_faulty fun _ _ _ hdone => nomatch hdone
  · exact .pure _

/-- So is a function behind its word. -/
theorem callable (expected : Expected) (stated : Bool) :
    Keeps pairing (Parser.callable inside expected stated) := by
  have hparameters : Keeps pairing (Parser.parameters inside) := by
    refine (expectMark_keeps (by decide) _).bind fun _ => ?_
    refine .bind (.listed hinside.parameter _) fun parameters => ?_
    exact (expectMark_keeps (by decide) _).bind fun _ => .pure parameters
  refine (identifier_keeps _).bind fun name => hparameters.bind fun parameters => ?_
  refine (hinside.returnType stated).bind fun returnType => ?_
  exact hinside.block.bind fun body => .pure _

/-- So are the methods of a struct. -/
theorem impl : Keeps pairing (Parser.impl options inside) := by
  have hmethod : Keeps pairing (Parser.method options inside) :=
    .onWord (advance_within.bind fun _ => hinside.callable _ _) (hinside.callable _ _)
  unfold Parser.impl
  refine (identifier_keeps _).bind fun name => (expectMark_keeps (by decide) _).bind fun _ => ?_
  refine .bind (.repeating (fun methods => ?_) _) fun _ =>
    (expectMark_keeps (by decide) _).bind fun _ => .pure _
  exact (nextIsMark_keeps _).either (.pure _)
    (atEnd_keeps.either (.pure _) (hmethod.bind fun _ => .pure _))

/-- An expression that stands as a statement may leave nothing behind its semicolon. -/
theorem expressionStatement : Ends pairing (Parser.expressionStatement inside) :=
  (hinside.expression true).bind fun _ => terminator_ends.bind fun _ => .pure _

/-- What follows the word of a statement may leave nothing, as its statement may. -/
theorem behindWord {word : String} {parser : Parser Statement}
    (hword : Parser.behindWord options inside word = some parser) : Ends pairing parser := by
  cases hword using Parser.behindWord_cases with
  | declaration binding => exact hinside.declaration binding
  | conditional => exact hinside.conditional.ends
  | whileLoop => exact hinside.whileLoop.ends
  | forLoop => exact hinside.forLoop.ends
  | breakLoop => exact closed .breakLoop
  | continueLoop => exact closed .continueLoop
  | returnValue => exact hinside.returnValue
  | struct => exact hinside.struct.ends
  | impl => exact hinside.impl.ends
  | function => exact Keeps.ends ((hinside.callable _ _).bind fun _ => .pure _)

/-- The words that begin statements may be keywords or not. -/
theorem statement : Ends pairing (Parser.statement options inside) := by
  unfold Parser.statement
  refine .onPeek hinside.expressionStatement (fun lexeme unread copy hpaired hhead => ?_)
    fun text unread copy hwithin => ?_
  · dsimp only
    split
    · next hword =>
      cases hparser : Parser.behindWord options inside lexeme.text with
      | some parser =>
        exact InStep.bind advance_within (fun _ => hinside.behindWord hparser) unread copy
          (Pairing.within_of_head hpaired hhead (Lexeme.isMarkOf_of_isWord hword))
      | none => exact hinside.expressionStatement unread copy hpaired
    · exact hinside.expressionStatement unread copy hpaired
  · have hwords : (⟨.keyword, text⟩ : Lexeme).isWord = true ∧
      (⟨.identifier, text⟩ : Lexeme).isWord = true := ⟨rfl, rfl⟩
    simp only [hwords, if_true]
    cases hparser : Parser.behindWord options inside text with
    | some parser =>
      exact InStep.bind advance_within (fun _ => hinside.behindWord hparser) unread copy hwithin
    | none => exact hinside.expressionStatement unread copy hwithin.1

end InsideInStep

/-- Every layer is in step, from the innermost one outwards. -/
theorem layerInside_inStep (pairing : Pairing) (options : Options) (levels : Nat) :
    InsideInStep pairing (layerInside options levels) := by
  induction levels with
  | zero => exact fun layer hlayer => nomatch hlayer
  | succ levels ih =>
    rintro layer ⟨⟩
    exact ⟨ih.type, ih.expression, fun literals => ih.operand literals, ih.statement⟩

section Programs

variable {pairing : Pairing} {statement : Parser Statement} {items last : List Statement}
  {unread copy rest : List Lexeme}

/-- A repetition of statements that comes to the end without a report is read on a copy as well.
What is left of the copy there is read by further rounds, with the statements that are held so
far. -/
theorem Parser.repeatFor_copy (hstatement : Ends pairing statement) {rounds more : List Lexeme}
    (hmore : rounds.length + pairing.longer ≤ more.length) (hafter : pairing.After unread copy)
    (hdone : repeatFor (nextStatement statement []) rounds items unread = .done last rest []) :
    ∃ fewer left, pairing.longer ≤ fewer.length ∧ pairing.After [] left ∧
      repeatFor (nextStatement statement []) more items copy =
        repeatFor (nextStatement statement []) fewer last left := by
  refine repeatFor_induction (motive := fun rounds items unread reports =>
    ∀ more copy : List Lexeme, reports = [] → rounds.length + pairing.longer ≤ more.length →
      pairing.After unread copy → ∃ fewer left, pairing.longer ≤ fewer.length ∧
        pairing.After [] left ∧ repeatFor (nextStatement statement []) more items copy =
          repeatFor (nextStatement statement []) fewer last left)
    ?_ ?_ hdone more copy rfl hmore hafter
  · intro rounds items unread reports hfinish more copy _ hmore hafter
    obtain ⟨rfl, hends, -⟩ := nextStatement_finish hfinish
    -- nothing but the end closes a program
    obtain rfl : unread = [] := by
      cases unread with
      | nil => rfl
      | cons lexeme others => simp [Lexeme.isMarkOf] at hends
    exact ⟨more, copy, Nat.le_trans (Nat.le_add_left _ _) hmore, hafter, rfl⟩
  · intro lexeme rounds items next unread middle earlier later hagain _ ih more copy hreports
      hmore hafter
    obtain ⟨rfl, rfl⟩ := List.append_eq_nil_iff.mp hreports
    rcases hafter with hpaired | ⟨rfl, -⟩
    · obtain ⟨left, hother, hleft⟩ :=
        hstatement.nextStatement [] items unread copy hpaired _ _ hagain
      rw [List.length_cons] at hmore
      obtain ⟨first, more, rfl⟩ := List.exists_cons_of_length_pos (show 0 < more.length by omega)
      rw [List.length_cons] at hmore
      rw [repeatFor_of_again first more hother, Reply.after_nil]
      exact ih more left rfl (by omega) hleft
    · cases hagain

/-- The statements of a program are held in reverse. -/
theorem Parser.program_apply (options : Options) (unread : List Lexeme) :
    Parser.program options unread =
      (repeatFor (nextStatement (Parser.statement options (outermost options)) []) unread []
        unread).map List.reverse :=
  map_apply List.reverse _ unread

/-- A program that is parsed without a report is read on a copy as well. -/
theorem Parser.program_copy {options : Options} {statements : List Statement}
    (hpaired : pairing.Paired unread copy)
    (hdone : Parser.program options unread = .done statements rest []) :
    ∃ fewer left, pairing.longer ≤ fewer.length ∧ pairing.After [] left ∧
      Parser.program options copy =
        (repeatFor (nextStatement (Parser.statement options (outermost options)) []) fewer
          statements.reverse left).map List.reverse := by
  obtain ⟨items, middle, hitems, hlast⟩ := exists_of_bind_eq_silent hdone
  obtain ⟨rfl, rfl, -⟩ := Reply.done.inj hlast
  have hinside : InsideInStep pairing (outermost options) :=
    layerInside_inStep pairing options maxNesting
  obtain ⟨fewer, left, hfewer, hleft, hcopy⟩ := repeatFor_copy hinside.statement
    (Nat.le_of_eq (pairing.length_eq hpaired).symm) (.inl hpaired) hitems
  rw [List.reverse_reverse, program_apply, hcopy]
  exact ⟨fewer, left, hfewer, hleft, rfl⟩

end Programs

end BraceLang
