import BraceLang.Parser.Expression

/-!
# Arrangements of operators

A row of operands with binary operators between them can be put together to a tree in several ways.
An arrangement is such a tree; its row is what it reads from left to right. It is ordered if no
operator stands over one on its left that binds less, or over one on its right that does not bind
more. A row has at most one ordered arrangement: the operator at its root is the last one of those
that bind least.

Operands in parentheses are rows again. They are no part of the arrangement around them, so what is
in parentheses may bind less than what is around it.
-/

namespace BraceLang

/-- Operands with binary operators between them, put together to a tree. -/
inductive Arrangement (α : Type) where
  | operand (value : α)
  | operation (left : Arrangement α) (operator : BinaryOperator) (right : Arrangement α)
  deriving Repr

namespace Arrangement

variable {α : Type}

/-- The operand on the far left. -/
def first : Arrangement α → α
  | .operand value => value
  | .operation left _ _ => left.first

/-- The other operands from left to right, each behind its operator. -/
def rest : Arrangement α → List (BinaryOperator × α)
  | .operand _ => []
  | .operation left operator right => left.rest ++ (operator, right.first) :: right.rest

/-- An operand, or an operation whose operator has at least some precedence. -/
def BindsFrom (bound : Nat) : Arrangement α → Prop
  | .operand _ => True
  | .operation _ operator _ => bound ≤ operator.precedence

/-- Every operation on the left of another one binds at least as tightly, every one on the right
binds tighter. -/
def Ordered : Arrangement α → Prop
  | .operand _ => True
  | .operation left operator right =>
    (left.BindsFrom operator.precedence ∧ left.Ordered) ∧
      right.BindsFrom (operator.precedence + 1) ∧ right.Ordered

/-- An ordered arrangement of a row. -/
structure Arranges (arrangement : Arrangement α) (first : α) (rest : List (BinaryOperator × α)) :
    Prop where
  first_eq : arrangement.first = first
  rest_eq : arrangement.rest = rest
  ordered : arrangement.Ordered

/-- What is bound from some precedence on is so from every lesser one on. -/
theorem BindsFrom.mono {arrangement : Arrangement α} {bound less : Nat}
    (hbinds : arrangement.BindsFrom bound) (hless : less ≤ bound) : arrangement.BindsFrom less := by
  cases arrangement with
  | operand => trivial
  | operation => exact Nat.le_trans hless hbinds

/-- In an ordered arrangement no operator binds less than the one at the root. -/
theorem Ordered.forall_rest {arrangement : Arrangement α} {bound : Nat}
    (hordered : arrangement.Ordered) (hbinds : arrangement.BindsFrom bound) :
    ∀ entry ∈ arrangement.rest, bound ≤ entry.1.precedence := by
  induction arrangement generalizing bound with
  | operand => simp [rest]
  | operation left operator right hleft hright =>
    obtain ⟨⟨hleftBinds, hleftOrdered⟩, hrightBinds, hrightOrdered⟩ := hordered
    have hroot : bound ≤ operator.precedence := hbinds
    simp only [rest, List.mem_append, List.mem_cons]
    rintro entry (hentry | rfl | hentry)
    · exact hleft hleftOrdered (hleftBinds.mono hroot) entry hentry
    · exact hroot
    · exact hright hrightOrdered (hrightBinds.mono (by omega)) entry hentry

/-- An entry of a row that no entry before it binds less than, and every one behind it binds tighter
than, stands at one place only. -/
private theorem root_unique {before behind before' behind' : List (BinaryOperator × α)}
    {root root' : BinaryOperator × α}
    (hrows : before ++ root :: behind = before' ++ root' :: behind')
    (hbefore : ∀ entry ∈ before, root.1.precedence ≤ entry.1.precedence)
    (hbehind : ∀ entry ∈ behind, root.1.precedence + 1 ≤ entry.1.precedence)
    (hbefore' : ∀ entry ∈ before', root'.1.precedence ≤ entry.1.precedence)
    (hbehind' : ∀ entry ∈ behind', root'.1.precedence + 1 ≤ entry.1.precedence) :
    before = before' ∧ root = root' ∧ behind = behind' := by
  rcases List.append_eq_append_iff.mp hrows with ⟨between, hlong, hshort⟩ |
    ⟨between, hlong, hshort⟩
  all_goals
    cases between with
    | nil =>
      obtain ⟨hroot, hrest⟩ := List.cons.inj hshort
      simp_all
    | cons entry between =>
      -- The one root is before the other: it binds no less, and less.
      obtain ⟨rfl, rfl⟩ := List.cons.inj hshort
      subst hlong
      simp only [List.mem_append, List.mem_cons] at hbefore hbehind hbefore' hbehind'
      grind

/-- A row has only one ordered arrangement. -/
theorem Arranges.unique {first : α} {rest : List (BinaryOperator × α)}
    {arrangement other : Arrangement α} (hone : arrangement.Arranges first rest)
    (htwo : other.Arranges first rest) : arrangement = other := by
  induction arrangement generalizing first rest other with
  | operand value =>
    cases other with
    | operand => exact congrArg _ (hone.first_eq.trans htwo.first_eq.symm)
    | operation =>
      have hempty := hone.rest_eq.trans htwo.rest_eq.symm
      simp [Arrangement.rest] at hempty
  | operation left operator right hleft hright =>
    cases other with
    | operand =>
      have hempty := hone.rest_eq.trans htwo.rest_eq.symm
      simp [Arrangement.rest] at hempty
    | operation leftOther operatorOther rightOther =>
      obtain ⟨⟨hbindsLeft, horderedLeft⟩, hbindsRight, horderedRight⟩ := hone.ordered
      obtain ⟨⟨hbindsLeft', horderedLeft'⟩, hbindsRight', horderedRight'⟩ := htwo.ordered
      have hrows : left.rest ++ (operator, right.first) :: right.rest =
          leftOther.rest ++ (operatorOther, rightOther.first) :: rightOther.rest :=
        hone.rest_eq.trans htwo.rest_eq.symm
      obtain ⟨hrestLeft, hroot, hrestRight⟩ := root_unique hrows
        (horderedLeft.forall_rest hbindsLeft) (horderedRight.forall_rest hbindsRight)
        (horderedLeft'.forall_rest hbindsLeft') (horderedRight'.forall_rest hbindsRight')
      obtain ⟨rfl, hfirstRight⟩ := Prod.mk.inj hroot
      have hfirstLeft : left.first = leftOther.first := hone.first_eq.trans htwo.first_eq.symm
      have heqLeft : left = leftOther :=
        hleft ⟨rfl, rfl, horderedLeft⟩ ⟨hfirstLeft.symm, hrestLeft.symm, horderedLeft'⟩
      have heqRight : right = rightOther :=
        hright ⟨rfl, rfl, horderedRight⟩ ⟨hfirstRight.symm, hrestRight.symm, horderedRight'⟩
      rw [heqLeft, heqRight]

end Arrangement

end BraceLang
