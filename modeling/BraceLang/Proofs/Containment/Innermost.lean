import BraceLang.Proofs.Conditions.Programs
import BraceLang.Proofs.Containment.Admission
import BraceLang.Proofs.Printing.Expressions
import BraceLang.Proofs.Spelling.Brackets

/-!
# Blocks where no more levels may be opened

A statement that opens a block where no more levels may be opened is read up to the brace of the
block. There the complaint is made, and the group that the brace begins is passed as a whole,
whatever stands in it. So the statement is one complaint, and what is unread is what stands behind
it.
-/

namespace BraceLang

open BraceLang.Parser

section Groups

variable {row rest : List Lexeme}

/-- A row of lexemes in which every group is closed that is opened in it, and none besides. -/
structure Balanced (row : List Lexeme) : Prop where
  within : ∀ front, front <+: row → 0 ≤ balance front
  closed : balance row = 0

/-- A row without brackets is even. -/
theorem Balanced.of_weightless (hrow : ∀ lexeme ∈ row, lexeme.weight = 0) : Balanced row := by
  have hzero (front : List Lexeme) (hfront : front ⊆ row) : balance front = 0 := by
    induction front with
    | nil => rfl
    | cons lexeme front ih =>
      obtain ⟨hlexeme, hrest⟩ := List.cons_subset.mp hfront
      rw [balance_cons, hrow lexeme hlexeme, ih hrest, Int.add_zero]
  exact ⟨fun front hfront => (hzero front hfront.subset).ge, hzero row (List.Subset.refl row)⟩

/-- Even rows one behind the other are even. -/
theorem Balanced.append {first second : List Lexeme} (hfirst : Balanced first)
    (hsecond : Balanced second) : Balanced (first ++ second) where
  within front hfront := by
    rcases List.prefix_or_prefix_of_prefix hfront (List.prefix_append first second) with
      hinside | ⟨behind, rfl⟩
    · exact hfirst.within front hinside
    · rw [balance_append, hfirst.closed, Int.zero_add]
      exact hsecond.within behind ((List.prefix_append_right_inj first).mp hfront)
  closed := by rw [balance_append, hfirst.closed, hsecond.closed, Int.add_zero]

/-- A group is even if what is in it is. -/
theorem Balanced.group {opening closing : Lexeme}
    (hopening : opening.isMarkOf openers = true) (hclosing : closing.isMarkOf closers = true)
    (hrow : Balanced row) : Balanced (opening :: (row ++ [closing])) := by
  have hup : opening.weight = 1 := by rw [Lexeme.weight, if_pos hopening]
  have hdown : closing.weight = -1 := by
    rw [Lexeme.weight, Lexeme.isMarkOf_disjoint hclosing (by decide), if_neg (by simp),
      if_pos hclosing]
  refine ⟨fun front hfront => ?_, by simp [hup, hdown, hrow.closed]⟩
  rcases List.prefix_cons_iff.mp hfront with rfl | ⟨behind, rfl, hbehind⟩
  · exact Int.le_refl 0
  · rw [balance_cons, hup]
    rcases List.prefix_concat_iff.mp hbehind with rfl | hinside
    · simp [hrow.closed, hdown]
    · have hopen := hrow.within behind hinside
      omega

/-- A lexeme that does not close the outermost of some open groups is passed with as many of them
open as it leaves. -/
theorem behindGroups_cons {depth : Nat} {lexeme : Lexeme} (hopen : 0 < depth + lexeme.weight)
    (rest : List Lexeme) :
    behindGroups depth (lexeme :: rest) = behindGroups (depth + lexeme.weight).toNat rest := by
  rw [behindGroups]
  unfold Lexeme.weight at hopen ⊢
  split
  · congr 1
  · next hopener =>
    rw [if_neg hopener] at hopen
    split
    · next hcloser =>
      rw [if_pos hcloser] at hopen
      rw [if_neg (by omega)]
      congr 1
      omega
    · rw [Int.add_zero, Int.toNat_natCast]

/-- Passing open groups goes on behind a row in which none of them is closed, with as many of them
open as the row leaves. -/
theorem behindGroups_append {depth : Nat}
    (hopen : ∀ front, front <+: row → 0 < depth + balance front) (rest : List Lexeme) :
    behindGroups depth (row ++ rest) = behindGroups (depth + balance row).toNat rest := by
  induction row generalizing depth with
  | nil => simp
  | cons lexeme row ih =>
    have hlater (front : List Lexeme) (hfront : front <+: row) :
        0 < depth + lexeme.weight + balance front := by
      have hpositive := hopen (lexeme :: front) (List.cons_prefix_cons.mpr ⟨rfl, hfront⟩)
      rwa [balance_cons, ← Int.add_assoc] at hpositive
    have hfirst : 0 < depth + lexeme.weight := by simpa using hlater [] List.nil_prefix
    have hdepth : ((depth + lexeme.weight).toNat : Int) = depth + lexeme.weight :=
      Int.toNat_of_nonneg (Int.le_of_lt hfirst)
    rw [List.cons_append, behindGroups_cons hfirst, ih (by rwa [hdepth]), hdepth, balance_cons,
      Int.add_assoc]

/-- A group is passed as a whole. -/
theorem behindGroup_of_balanced {opening closing : Lexeme}
    (hopener : opening.isMarkOf openers = true) (hcloser : closing.isMarkOf closers = true)
    (hrow : Balanced row) (rest : List Lexeme) :
    behindGroup (opening :: (row ++ closing :: rest)) = rest := by
  have hnot : closing.isMarkOf openers = false := Lexeme.isMarkOf_disjoint hcloser (by decide)
  have hwithin (front : List Lexeme) (hfront : front <+: row) :
      0 < ((1 : Nat) : Int) + balance front := by
    have hfront := hrow.within front hfront
    omega
  rw [behindGroup, if_pos hopener, behindGroups_append hwithin, hrow.closed]
  change behindGroups 1 (closing :: rest) = rest
  rw [behindGroups, hnot, if_neg (by simp), if_pos hcloser, if_pos (Nat.le_refl 1)]

end Groups

section Headers

/-- A lexeme that is an expression on its own. -/
def Lexeme.IsOperand (lexeme : Lexeme) : Prop :=
  (lexeme.kind = .identifier ∨ lexeme.kind = .string ∨ lexeme.kind = .number) ∧ lexeme.IsReadable

/-- What stands in front of the block of a statement: a condition of a conditional statement or of a
loop, or what a loop goes over. -/
inductive IsHeader : List Lexeme → Prop
  | conditional {word condition : Lexeme} : word.isWordOf ["if"] = true →
    condition.IsOperand → IsHeader [word, condition]
  | whileLoop {word condition : Lexeme} : word.isWordOf ["while"] = true →
    condition.IsOperand → IsHeader [word, condition]
  | forLoop {word letWord name inWord iterable : Lexeme} : word.isWordOf ["for"] = true →
    letWord.isWordOf ["let"] = true → name.kind = .identifier → inWord.isWordOf ["in"] = true →
    iterable.IsOperand → IsHeader [word, letWord, name, inWord, iterable]

/-- No header ends an input. -/
theorem IsHeader.kind_ne {header : List Lexeme} (hheader : IsHeader header) :
    ∀ lexeme ∈ header, lexeme.kind ≠ .endOfInput := by
  have hword {word : Lexeme} {text : String} (hword : word.isWordOf [text] = true) :
      word.kind ≠ .endOfInput := by
    intro hkind
    have hisWord := Lexeme.isWord_of_isWordOf hword
    simp [Lexeme.isWord, hkind] at hisWord
  have hoperand {operand : Lexeme} (hoperand : operand.IsOperand) :
      operand.kind ≠ .endOfInput := by
    rcases hoperand.1 with hkind | hkind | hkind <;> simp [hkind]
  cases hheader with
  | conditional hfirst hcondition | whileLoop hfirst hcondition =>
    simpa using ⟨hword hfirst, hoperand hcondition⟩
  | forLoop hfirst hlet hname hin hiterable =>
    simpa [hname] using ⟨hword hfirst, hword hlet, hword hin, hoperand hiterable⟩

variable {options : Options}

section Conditions

variable (inside : Option Layer) {lexeme brace : Lexeme} (hlexeme : lexeme.IsOperand)
  (hbrace : brace.isMarkOf ["\x7b"] = true) (rest : List Lexeme)
include hlexeme hbrace

/-- A name, a string or a number is read alone in front of a brace where no struct literal may
begin. -/
theorem Parser.primary_reads_lexeme :
    ∃ value, primary inside false (lexeme :: brace :: rest) = .done value (brace :: rest) [] := by
  obtain ⟨hkind, hreadable⟩ := hlexeme
  obtain ⟨kind, text⟩ := lexeme
  unfold primary
  rw [peek_bind]
  rcases hkind with rfl | rfl | rfl
  · by_cases htruth : text = "true" ∨ text = "false"
    · refine ⟨.boolean (text == "true"), ?_⟩
      simp only [List.head?_cons, if_pos htruth]
      rfl
    · have htype : NotMark ["<"] (brace :: rest) := Lexeme.isMarkOf_disjoint hbrace (by decide)
      have harguments : NotMark ["("] (brace :: rest) :=
        Lexeme.isMarkOf_disjoint hbrace (by decide)
      refine ⟨.name ⟨text, []⟩, ?_⟩
      simp only [List.head?_cons, if_neg htruth, if_true]
      rw [advance_bind, List.tail_cons, named, nextIsMark_bind, Bool.false_and, if_neg (by simp),
        nextAreTypeArguments_bind, htype, Bool.false_and, Bool.false_and, if_neg (by simp), called,
        nextIsMark_bind, harguments]
      rfl
  · exact ⟨.string text, rfl⟩
  · obtain ⟨value, hvalue⟩ := hreadable rfl
    have hnumeral : numeral text (⟨.number, text⟩ :: brace :: rest) =
        .done value (brace :: rest) [] := by
      unfold numeral
      rw [hvalue]
      rfl
    exact ⟨.number value, bind_of_silent _ hnumeral⟩

/-- A lexeme that is an operand is an expression in front of a brace. -/
theorem Parser.expression_reads_lexeme :
    ∃ value, expression inside false (lexeme :: brace :: rest) =
      .done value (brace :: rest) [] := by
  obtain ⟨value, hprimary⟩ := primary_reads_lexeme inside hlexeme hbrace rest
  have hnot : NotMark ["::"] (brace :: rest) := Lexeme.isMarkOf_disjoint hbrace (by decide)
  exact ⟨value, expression_of_primary hprimary hnot
    (operatorsBelow_of_isMarkOf hbrace (by decide) 0 rest)⟩

end Conditions

section Blocks

variable {opening closing : Lexeme} {row : List Lexeme}
  (hopening : opening.isMarkOf ["\x7b"] = true) (hclosing : closing.isMarkOf ["\x7d"] = true)
  (hrow : Balanced row) (rest : List Lexeme)
include hopening hclosing hrow

/-- The complaint is made at the brace, and the block is passed. -/
theorem Parser.block_tooDeep :
    block none (opening :: (row ++ closing :: rest)) =
      .failed ⟨(opening :: (row ++ closing :: rest)).length, .nestingTooDeep (some opening)⟩
        rest [] := by
  refine bind_of_failed _ ?_
  change Reply.failed _ (behindGroup _) _ = _
  rw [behindGroup_of_balanced (Lexeme.isMarkOf_subset hopening (by decide))
    (Lexeme.isMarkOf_subset hclosing (by decide)) hrow]
  rfl

/-- So it is made behind whatever is read in front of the brace. -/
theorem Parser.condition_tooDeep {α : Type} {condition : Lexeme}
    (hcondition : condition.IsOperand) (next : Expression → List Statement → Parser α) :
    (do
      let value ← expression none false
      let body ← block none
      next value body) (condition :: opening :: (row ++ closing :: rest)) =
      .failed ⟨(opening :: (row ++ closing :: rest)).length, .nestingTooDeep (some opening)⟩
        rest [] := by
  obtain ⟨value, hvalue⟩ := expression_reads_lexeme none hcondition hopening
    (row ++ closing :: rest)
  rw [bind_of_silent _ hvalue]
  exact bind_of_failed _ (block_tooDeep hopening hclosing hrow rest)

/-- A statement that opens a block where no more levels may be opened fails at its brace. -/
theorem Parser.statement_tooDeep {header : List Lexeme} (hheader : IsHeader header) :
    statement options none (header ++ opening :: (row ++ closing :: rest)) =
      .failed ⟨(opening :: (row ++ closing :: rest)).length, .nestingTooDeep (some opening)⟩
        rest [] := by
  cases hheader with
  | @conditional word condition hword hcondition =>
    refine (statement_of_word hword rfl _).trans (bind_of_failed _ ?_)
    exact condition_tooDeep hopening hclosing hrow rest hcondition _
  | @whileLoop word condition hword hcondition =>
    refine (statement_of_word hword rfl _).trans ?_
    exact condition_tooDeep hopening hclosing hrow rest hcondition _
  | @forLoop word letWord name inWord iterable hword hlet hname hin hiterable =>
    refine (statement_of_word hword rfl _).trans ((forLoop_behind_in hlet hname hin _).trans ?_)
    exact condition_tooDeep hopening hclosing hrow rest hiterable _

/-- Where it is put in, such a statement is one complaint. -/
theorem insertable_tooDeep {header : List Lexeme} (hheader : IsHeader header) :
    Insertable options (header ++ opening :: (row ++ [closing])) rest
      (.error (.nestingTooDeep (some opening)))
      [⟨(opening :: (row ++ closing :: rest)).length, .nestingTooDeep (some opening)⟩] where
  begins := by
    have hword {word : Lexeme} {text : String} (hword : word.isWordOf [text] = true) :
        word.isMarkOf ["\x7d"] = false := Lexeme.isMarkOf_of_isWordOf hword
    cases hheader with
    | conditional hfirst | whileLoop hfirst | forLoop hfirst => exact ⟨_, _, rfl, hword hfirst⟩
  reads := by
    simp only [List.append_assoc, List.cons_append, List.nil_append]
    exact recovered_of_failed (statement_tooDeep hopening hclosing hrow rest hheader)

end Blocks

/-- A word that is a statement by itself is put in with its semicolon. -/
theorem insertable_closed {word semicolon : Lexeme} {text : String} {item : Statement}
    (hword : word.isWordOf [text] = true)
    (hparser : behindWord options none text = some (closed item))
    (hsemicolon : semicolon.isMarkOf [";"] = true) (rest : List Lexeme) :
    Insertable options [word, semicolon] rest item [] where
  begins := ⟨word, [semicolon], rfl, Lexeme.isMarkOf_of_isWordOf hword⟩
  reads := by
    refine recovered_of_done ?_
    exact (statement_of_word hword hparser (semicolon :: rest)).trans
      (bind_of_silent _ (expectMark_cons hsemicolon rest))

end Headers

end BraceLang
