import BraceLang.Outline.Grammar
import BraceLang.Proofs.Outline.Basic
import BraceLang.Proofs.Parsing.Rounds

/-!
# Climbing over the precedences

An expression can also be read by one loop, which goes round for every access to a scope and for
every binary operator that binds tighter than a minimum. Behind an operator it reads an expression
whose operators bind tighter than that one. The rows of operators of one precedence each, which are
put into one another, come to the same on every input, be it well formed or not.

The induction is on the number of precedences. The loop of the tighter ones comes to its end where
no access is next and no such operator; only there does it make a difference whether one more
precedence is read, and behind an operator of that one it is at its end again.
-/

namespace BraceLang.Parser

/-- The binary operator that the next lexeme is, if it is one. -/
def binaryOperator? (next : Option Lexeme) : Option BinaryOperator :=
  next.bind fun lexeme =>
    if lexeme.isMark then BinaryOperator.ofSpelling? lexeme.text else none

/-- Reads an access to the scope of an expression, or a binary operator that binds tighter than a
minimum and what stands behind it. Scope access has the precedence seven. -/
def nextTighter (inside : Option Layer) (minimum : Int)
    (behind : (operator : BinaryOperator) → minimum < operator.precedence → Parser Expression)
    (left : Expression) : Parser (Turn Expression) := do
  if (← nextIsMark ["::"]) && minimum < 7 then nextAccess inside left
  else match binaryOperator? (← peek) with
    | some operator =>
      if htighter : minimum < operator.precedence then
        advance
        let right ← behind operator htighter
        return .again (.binary left operator right)
      else return .finish left
    | none => return .finish left

/-- Reads an expression whose operators bind tighter than a minimum, in one loop. The minimum rises
with every operator behind which an expression is read. -/
def climb (inside : Option Layer) (literals : Bool) (minimum : Int) : Parser Expression := do
  let first ← primary inside literals
  repeating
    (nextTighter inside minimum fun operator _ => climb inside literals operator.precedence) first
termination_by (7 - minimum).toNat
decreasing_by
  have hprecedence := operator.precedence_lt
  omega

section Rounds

variable {inside : Option Layer} {minimum : Int}
  {behind : (operator : BinaryOperator) → minimum < operator.precedence → Parser Expression}
  {left : Expression} {unread : List Lexeme}

/-- Neither an access to a scope is next nor a binary operator that binds tighter than a minimum. -/
structure Loose (minimum : Int) (unread : List Lexeme) : Prop where
  access : minimum < 7 → unread.head?.any (·.isMarkOf ["::"]) = false
  operator : ∀ operator ∈ binaryOperator? unread.head?, operator.precedence ≤ minimum

/-- What the round of a loop does with the next lexeme. -/
theorem nextTighter_apply (left : Expression) (unread : List Lexeme) :
    nextTighter inside minimum behind left unread =
      if (unread.head?.any (·.isMarkOf ["::"]) && decide (minimum < 7)) = true then
        nextAccess inside left unread
      else match binaryOperator? unread.head? with
        | some operator =>
          if htighter : minimum < operator.precedence then
            ((fun right => Turn.again (Expression.binary left operator right)) <$>
              behind operator htighter) unread.tail
          else .done (.finish left) unread []
        | none => .done (.finish left) unread [] := by
  unfold nextTighter
  rw [nextIsMark_bind]
  by_cases haccess : (unread.head?.any (·.isMarkOf ["::"]) && decide (minimum < 7)) = true
  · rw [if_pos haccess, if_pos haccess]
  · rw [if_neg haccess, if_neg haccess, peek_bind]
    cases binaryOperator? unread.head? with
    | none => rfl
    | some operator =>
      by_cases htighter : minimum < operator.precedence
      · simp only [dif_pos htighter, advance_bind]
        rfl
      · simp only [dif_neg htighter, pure_apply]

/-- Where nothing that binds tighter is next, the loop is at its end. -/
theorem nextTighter_of_loose (hloose : Loose minimum unread) (left : Expression) :
    nextTighter inside minimum behind left unread = .done (.finish left) unread [] := by
  have haccess : ¬(unread.head?.any (·.isMarkOf ["::"]) && decide (minimum < 7)) = true := by
    intro hnext
    obtain ⟨hmark, hminimum⟩ := (Bool.and_eq_true _ _).mp hnext
    rw [hloose.access (of_decide_eq_true hminimum)] at hmark
    cases hmark
  rw [nextTighter_apply, if_neg haccess]
  cases hoperator : binaryOperator? unread.head? with
  | none => rfl
  | some operator => exact dif_neg (Int.not_lt.mpr (hloose.operator operator hoperator))

/-- An access that is next is read, or the reading of it fails, but it is not passed over. -/
theorem nextAccess_ne_finish (haccess : unread.head?.any (·.isMarkOf ["::"]) = true)
    {scope last : Expression} {rest : List Lexeme} {reports : List Report} :
    nextAccess inside scope unread ≠ .done (.finish last) rest reports := by
  intro hdone
  unfold nextAccess at hdone
  rw [accept_bind, if_pos haccess, if_pos rfl] at hdone
  obtain ⟨name, middle, _, _, -, hdone, -⟩ := exists_of_bind_eq_done hdone
  rw [nextIsMark_bind] at hdone
  split at hdone
  · obtain ⟨arguments, middle, _, _, -, hdone, -⟩ := exists_of_bind_eq_done hdone
    cases hdone
  · cases hdone

/-- Where something that binds tighter is next, the loop is not at its end. -/
theorem nextTighter_ne_finish (hnot : ¬Loose minimum unread) {last : Expression}
    {rest : List Lexeme} {reports : List Report} :
    nextTighter inside minimum behind left unread ≠ .done (.finish last) rest reports := by
  intro hdone
  rw [nextTighter_apply] at hdone
  split at hdone
  · next haccess => exact nextAccess_ne_finish ((Bool.and_eq_true _ _).mp haccess).1 hdone
  · next haccess =>
    have hloose (hoperator : ∀ operator ∈ binaryOperator? unread.head?,
        operator.precedence ≤ minimum) : Loose minimum unread := by
      refine ⟨fun hminimum => ?_, hoperator⟩
      rw [decide_eq_true hminimum, Bool.and_true] at haccess
      exact Bool.eq_false_iff.mpr haccess
    cases hnext : binaryOperator? unread.head? with
    | none => exact hnot (hloose fun operator hoperator => nomatch hnext.symm.trans hoperator)
    | some operator =>
      rw [hnext] at hdone
      dsimp only at hdone
      split at hdone
      · obtain ⟨right, middle, _, _, -, hdone, -⟩ := exists_of_bind_eq_done hdone
        cases hdone
      · next htighter =>
        refine hnot (hloose fun other hother => ?_)
        cases hnext.symm.trans hother
        exact Int.not_lt.mp htighter

/-- A loop that comes to a value is at its end there. -/
theorem loose_of_repeating {first last : Expression} {rest : List Lexeme} {reports : List Report}
    (hdone : repeating (nextTighter inside minimum behind) first unread =
      .done last rest reports) : Loose minimum rest := by
  refine repeatFor_induction (motive := fun _ _ _ _ => Loose minimum rest) ?_
    (fun _ _ hloose => hloose) hdone
  intro _ left unread reports hlast
  by_cases hloose : Loose minimum unread
  · rw [nextTighter_of_loose hloose] at hlast
    cases hlast
    exact hloose
  · exact absurd hlast (nextTighter_ne_finish hloose)

end Rounds

section Passing

variable {inside : Option Layer}

/-- What is behind a lexeme that is next is shorter. -/
theorem length_lt_of_suffix_tail {unread rest : List Lexeme} (hsome : unread ≠ [])
    (hsuffix : rest <:+ unread.tail) : rest.length < unread.length := by
  have hpositive := List.length_pos_iff.mpr hsome
  have hlength := hsuffix.length_le
  rw [List.length_tail] at hlength
  omega

/-- Every round of the loop passes a lexeme, unless it is the last. -/
theorem nextTighter_passes (harguments : (arguments inside).Runs) {minimum : Int}
    {behind : (operator : BinaryOperator) → minimum < operator.precedence → Parser Expression}
    (hbehind : ∀ operator htighter, (behind operator htighter).Runs) :
    PassRounds (nextTighter inside minimum behind) := by
  intro left next unread rest reports hdone
  have hsome : unread ≠ [] := by
    rintro rfl
    cases hdone
  refine length_lt_of_suffix_tail hsome ?_
  rw [nextTighter_apply] at hdone
  split at hdone
  · next haccess =>
    unfold nextAccess at hdone
    rw [accept_bind, if_pos ((Bool.and_eq_true _ _).mp haccess).1, if_pos rfl] at hdone
    obtain ⟨name, middle, _, _, hname, hdone, -⟩ := exists_of_bind_eq_done hdone
    have hmiddle := (identifier_runs _).suffix hname
    rw [nextIsMark_bind] at hdone
    split at hdone
    · obtain ⟨arguments, last, _, _, hlast, hdone, -⟩ := exists_of_bind_eq_done hdone
      cases hdone
      exact (harguments.suffix hlast).trans hmiddle
    · cases hdone
      exact hmiddle
  · split at hdone
    · next operator _ =>
      split at hdone
      · next htighter =>
        obtain ⟨right, middle, _, _, hright, hdone, -⟩ := exists_of_bind_eq_done hdone
        cases hdone
        exact (hbehind operator htighter).suffix hright
      · cases hdone
    · cases hdone

/-- What the round of a row of operators of one precedence does with the next lexeme. -/
theorem nextOperand_apply (behind : Parser Expression) (precedence : Nat) (left : Expression)
    (unread : List Lexeme) :
    nextOperand behind precedence left unread =
      match (binaryOperator? unread.head?).filter (·.precedence == precedence) with
      | some operator =>
        ((fun right => Turn.again (Expression.binary left operator right)) <$> behind) unread.tail
      | none => .done (.finish left) unread [] := by
  have hfound : (unread.head?.bind fun lexeme =>
      if lexeme.isMark then
        (BinaryOperator.ofSpelling? lexeme.text).filter (·.precedence == precedence)
      else none) = (binaryOperator? unread.head?).filter (·.precedence == precedence) := by
    unfold binaryOperator?
    cases unread.head? with
    | none => rfl
    | some lexeme =>
      rw [Option.bind_some, Option.bind_some]
      split <;> rfl
  unfold nextOperand
  rw [nextOperator_bind, hfound]
  cases (binaryOperator? unread.head?).filter (·.precedence == precedence) with
  | none => rfl
  | some operator => exact bind_of_silent _ rfl

/-- So do the rounds of a row of operators of one precedence. -/
theorem nextOperand_passes {behind : Parser Expression} (hbehind : behind.Runs)
    (precedence : Nat) : PassRounds (nextOperand behind precedence) := by
  intro left next unread rest reports hdone
  have hsome : unread ≠ [] := by
    rintro rfl
    cases hdone
  refine length_lt_of_suffix_tail hsome ?_
  rw [nextOperand_apply] at hdone
  split at hdone
  · obtain ⟨right, middle, _, _, hright, hdone, -⟩ := exists_of_bind_eq_done hdone
    cases hdone
    exact hbehind.suffix hright
  · cases hdone

end Passing

section Rows

variable {inside : Option Layer} {literals : Bool} {count : Nat}

/-- The round of a loop for the operators of so many of the greatest precedences, behind which the
rows of those that bind tighter are read. -/
def nextOfTightest (inside : Option Layer) (literals : Bool) (count : Nat) :
    Expression → Parser (Turn Expression) :=
  nextTighter inside (6 - count) fun operator _ =>
    binary (operand inside literals) (6 - operator.precedence)

/-- Where the operators of fewer precedences come to their end, one more precedence is a row of its
own. -/
theorem nextOfTightest_of_loose (hcount : count ≤ 6) {unread : List Lexeme}
    (hloose : Loose (6 - count) unread) (left : Expression) :
    nextOfTightest inside literals (count + 1) left unread =
      nextOperand (binary (operand inside literals) count) (6 - count) left unread := by
  have haccess : unread.head?.any (·.isMarkOf ["::"]) = false := hloose.access (by omega)
  rw [nextOfTightest, nextTighter_apply, nextOperand_apply, haccess, Bool.false_and,
    if_neg Bool.false_ne_true]
  cases hnext : binaryOperator? unread.head? with
  | none => rfl
  | some operator =>
    have hprecedence := hloose.operator operator hnext
    dsimp only [Option.filter_some]
    by_cases hsame : operator.precedence = 6 - count
    · have htighter : (6 - (count + 1 : Nat) : Int) < operator.precedence := by omega
      have hinside : 6 - operator.precedence = count := by omega
      rw [dif_pos htighter, if_pos (beq_iff_eq.mpr hsame), hinside]
    · have hlooser : ¬(6 - (count + 1 : Nat) : Int) < operator.precedence := by omega
      rw [dif_neg hlooser, if_neg (by simpa using hsame)]

/-- Elsewhere it makes no difference whether there is one more precedence. -/
theorem nextOfTightest_succ {unread : List Lexeme} (hnot : ¬Loose (6 - count) unread)
    (left : Expression) :
    nextOfTightest inside literals (count + 1) left unread =
      nextOfTightest inside literals count left unread := by
  have hmore : (6 - (count + 1 : Nat) : Int) < 7 := by omega
  have hfewer : (6 - count : Int) < 7 := by omega
  rw [nextOfTightest, nextOfTightest, nextTighter_apply, nextTighter_apply, decide_eq_true hmore,
    decide_eq_true hfewer, Bool.and_true]
  split
  · rfl
  · next haccess =>
    cases hnext : binaryOperator? unread.head? with
    | none => rfl
    | some operator =>
      by_cases htighter : (6 - count : Int) < operator.precedence
      · have hmore : (6 - (count + 1 : Nat) : Int) < operator.precedence := by omega
        dsimp only
        rw [dif_pos htighter, dif_pos hmore]
      · refine absurd ⟨fun _ => Bool.eq_false_iff.mpr haccess, fun other hother => ?_⟩ hnot
        cases hnext.symm.trans hother
        exact Int.not_lt.mp htighter

/-- The loop of an expression depends on its minimum by what binds tighter only. -/
theorem nextTighter_eq (minimum : Int) (hminimum : minimum < 7)
    {behind : (operator : BinaryOperator) → minimum < operator.precedence → Parser Expression}
    (hbehind : ∀ operator htighter,
      behind operator htighter = binary (operand inside literals) (6 - operator.precedence)) :
    nextTighter inside minimum behind =
      nextOfTightest inside literals (precedencesAbove minimum) := by
  funext left unread
  have hbound : (6 - precedencesAbove minimum : Int) < 7 := by omega
  rw [nextOfTightest, nextTighter_apply, nextTighter_apply, decide_eq_true hminimum,
    decide_eq_true hbound]
  split
  · rfl
  · split
    · next operator _ =>
      have htighter : minimum < operator.precedence ↔
          (6 - precedencesAbove minimum : Int) < operator.precedence := by
        unfold precedencesAbove
        omega
      by_cases hthis : minimum < operator.precedence
      · rw [dif_pos hthis, dif_pos (htighter.mp hthis), hbehind operator hthis]
      · rw [dif_neg hthis, dif_neg fun hother => hthis (htighter.mpr hother)]
    · rfl

variable {levels : Nat} (outlines : InsideOutlines inside levels)
include outlines

/-- Rows of operators of one precedence each, in one another, are read by one loop. -/
theorem binary_eq_loop (literals : Bool) (hcount : count ≤ 7) :
    binary (operand inside literals) count =
      (primary inside literals >>= repeating (nextOfTightest inside literals count)) := by
  have harguments : (arguments inside).Runs :=
    (outlines.arguments : Outline ⟨true, levels, literals⟩ none _).runs
  have hbinary (count : Nat) : (binary (operand inside literals) count).Runs :=
    (InsideOutlines.binary (outlines.operand : Outline ⟨true, levels, literals⟩ none _) count).runs
  have hpasses (count : Nat) : PassRounds (nextOfTightest inside literals count) :=
    nextTighter_passes harguments fun operator _ => hbinary _
  induction count with
  | zero =>
    have hround : nextOfTightest inside literals 0 = nextAccess inside := by
      funext left unread
      rw [nextOfTightest, nextTighter_apply]
      split
      · rfl
      · next haccess =>
        have hnone : unread.head?.any (·.isMarkOf ["::"]) = false := by simpa using haccess
        have hfinish : nextAccess inside left unread = .done (.finish left) unread [] := by
          unfold nextAccess
          rw [accept_bind, hnone]
          rfl
        rw [hfinish]
        split
        · next operator _ =>
          have hprecedence := operator.precedence_lt
          exact dif_neg (by omega)
        · rfl
    rw [hround]
    rfl
  | succ count ih =>
    have hrow := ih (by omega)
    -- a right operand ends where the tighter loop does, so the tighter loop need not start again
    have hbehind {left next : Expression} {unread rest : List Lexeme} {reports : List Report}
        (hagain : nextOperand (binary (operand inside literals) count) (6 - count) left unread =
          .done (.again next) rest reports) : Loose (6 - count) rest := by
      rw [nextOperand_apply] at hagain
      split at hagain
      · obtain ⟨right, _, _, _, hright, hturn, -⟩ := exists_of_bind_eq_done hagain
        cases hturn
        rw [hrow] at hright
        obtain ⟨_, _, _, _, -, hloop, -⟩ := exists_of_bind_eq_done hright
        exact loose_of_repeating hloop
      · cases hagain
    have hloops (first : Expression) :
        (repeating (nextOfTightest inside literals count) first >>=
          repeating (nextOperand (binary (operand inside literals) count) (6 - count))) =
            repeating (nextOfTightest inside literals (count + 1)) first :=
      repeating_bind_repeating (Loose (6 - count)) (hpasses count)
        (nextOperand_passes (hbinary count) (6 - count))
        (fun hloose left => ⟨nextTighter_of_loose hloose left,
          nextOfTightest_of_loose (by omega) hloose left⟩)
        (fun hnot left => ⟨nextOfTightest_succ hnot left, fun _ _ _ => nextTighter_ne_finish hnot⟩)
        hbehind first
    calc binary (operand inside literals) (count + 1)
      _ = (binary (operand inside literals) count >>=
            repeating (nextOperand (binary (operand inside literals) count) (6 - count))) := rfl
      _ = (primary inside literals >>= repeating (nextOfTightest inside literals count)) >>=
            repeating (nextOperand (binary (operand inside literals) count) (6 - count)) := by
        rw [← hrow]
      _ = primary inside literals >>= repeating (nextOfTightest inside literals (count + 1)) := by
        rw [bind_assoc]
        exact congrArg (primary inside literals >>= ·) (funext hloops)

/-- One loop that climbs over the precedences reads what the rows of operators read, with the same
reports and the same failures, whatever the minimum and the input are. -/
theorem climb_eq_expressionAbove (literals : Bool) (minimum : Int) :
    climb inside literals minimum = expressionAbove inside literals minimum := by
  induction hsize : (7 - minimum).toNat using Nat.strongRecOn generalizing minimum with
  | ind size ih =>
    subst hsize
    rw [climb, expressionAbove]
    split
    · next hminimum =>
      have hbehind (operator : BinaryOperator) (htighter : minimum < operator.precedence) :
          climb inside literals operator.precedence =
            binary (operand inside literals) (6 - operator.precedence) := by
        have hprecedence := operator.precedence_lt
        have hcount : precedencesAbove operator.precedence = 6 - operator.precedence := by
          unfold precedencesAbove
          omega
        rw [ih _ (by omega) _ rfl, expressionAbove, if_pos (by omega), hcount]
      have hcount : precedencesAbove minimum ≤ 7 := by
        unfold precedencesAbove
        omega
      rw [binary_eq_loop outlines literals hcount, nextTighter_eq minimum hminimum hbehind]
    · next hminimum =>
      -- nothing binds tighter than scope access, so the loop never goes round
      have hloose (unread : List Lexeme) : Loose minimum unread := by
        refine ⟨fun hless => absurd hless hminimum, fun operator _ => ?_⟩
        have hprecedence := operator.precedence_lt
        omega
      funext unread
      cases hprimary : primary inside literals unread with
      | done first rest reports =>
        refine bind_of_done_silent hprimary ?_
        exact repeatFor_of_finish rest (nextTighter_of_loose (hloose rest) first)
      | failed => exact bind_of_failed _ hprimary
      | stopped => exact bind_of_stopped _ hprimary

end Rows

end BraceLang.Parser

namespace BraceLang

/-- So an expression that a session is asked for is read by the loop. -/
theorem Entry.parser_expression (options : Options) (minimum : Int) :
    (Entry.expression minimum).parser options =
      Expression.toNode <$> Parser.climb (Parser.outermost options) true minimum := by
  have hclimb := Parser.climb_eq_expressionAbove (insideOutlines options maxNesting) true minimum
  exact congrArg (Expression.toNode <$> ·) hclimb.symm

end BraceLang
