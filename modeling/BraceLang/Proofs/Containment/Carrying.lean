import BraceLang.Proofs.Containment.Gaps
import BraceLang.Proofs.Parsing.Rounds

/-!
# Carrying gaps on

What is read behind a value does not depend on what stands in the blocks of the value. So it is read
as before where a statement is put into a gap of the value, and what it is part of has the gap.
-/

namespace BraceLang

open BraceLang.Parser

variable {α β γ σ : Type}

/-- What goes on behind a value with a gap goes on in the same way with a statement put in, and has
the gap as well. -/
def Carries (gaps : Gaps α) (next : α → Parser β) (more : Gaps β) : Prop :=
  ∀ ⦃value : α⦄ ⦃fill : Statement → α⦄, gaps value fill →
    ∀ ⦃unread rest : List Lexeme⦄ ⦃result : β⦄, next value unread = .done result rest [] →
    ∃ filled, more result filled ∧ ∀ item, next (fill item) unread = .done (filled item) rest []

namespace Carries

variable {gaps : Gaps α} {middle : Gaps β} {more : Gaps γ}

/-- What a value is part of. -/
theorem pure {make : α → γ}
    (hmake : ∀ {value fill}, gaps value fill → more (make value) fun item => make (fill item)) :
    Carries gaps (fun value => pure (make value)) more := by
  intro value fill hgap unread rest result hdone
  obtain ⟨rfl, rfl, -⟩ := Reply.done.inj hdone
  exact ⟨fun item => make (fill item), hmake hgap, fun item => rfl⟩

/-- Something else is read in between, which does not depend on what is put in. -/
theorem behind {parser : α → Parser β} {next : α → β → Parser γ}
    (hsame : ∀ {value fill}, gaps value fill → ∀ item, parser (fill item) = parser value)
    (hnext : ∀ other, Carries gaps (fun value => next value other) more) :
    Carries gaps (fun value => parser value >>= next value) more := by
  intro value fill hgap unread rest result hdone
  obtain ⟨other, left, hother, hlast⟩ := exists_of_bind_eq_silent hdone
  obtain ⟨filled, hmore, hfilled⟩ := hnext other hgap hlast
  refine ⟨filled, hmore, fun item => ?_⟩
  change (parser (fill item) >>= next (fill item)) unread = _
  rw [hsame hgap item, bind_of_silent _ hother]
  exact hfilled item

/-- Something else is read in between. -/
theorem after {parser : Parser β} {next : α → β → Parser γ}
    (hnext : ∀ other, Carries gaps (fun value => next value other) more) :
    Carries gaps (fun value => parser >>= next value) more :=
  behind (fun _ _ => rfl) hnext

/-- What goes on behind what goes on behind a value. -/
theorem bind {first : α → Parser β} {second : β → Parser γ} (hfirst : Carries gaps first middle)
    (hsecond : Carries middle second more) :
    Carries gaps (fun value => first value >>= second) more := by
  intro value fill hgap unread rest result hdone
  obtain ⟨other, left, hother, hlast⟩ := exists_of_bind_eq_silent hdone
  obtain ⟨between, hmiddle, hbetween⟩ := hfirst hgap hother
  obtain ⟨filled, hmore, hfilled⟩ := hsecond hmiddle hlast
  refine ⟨filled, hmore, fun item => ?_⟩
  change (first (fill item) >>= second) unread = _
  rw [bind_of_silent _ (hbetween item)]
  exact hfilled item

/-- Either way behind a question. -/
theorem cond {condition : Prop} [Decidable condition] {yes no : α → Parser γ}
    (hyes : Carries gaps yes more) (hno : Carries gaps no more) :
    Carries gaps (fun value => if condition then yes value else no value) more := by
  split
  · exact hyes
  · exact hno

/-- A value without gaps. -/
theorem none {next : α → Parser γ} : Carries NoGaps next more := fun _ _ hgap => hgap.elim

/-- What every round carries on is carried on by a repetition. -/
theorem repeatFor {again finish : Gaps σ} {round : σ → Parser (Turn σ)}
    (hround : Carries again round (InTurn again finish)) (rounds : List Lexeme) :
    Carries again (Parser.repeatFor round rounds) finish := by
  intro state fill hgap unread rest last hdone
  induction rounds generalizing state fill unread with
  | nil =>
    rcases repeatFor_cases hdone with hfinish | ⟨_, _, _, _, _, _, hcons, -⟩
    · obtain ⟨_, ⟨hstate⟩ | ⟨hstate⟩, hfilled⟩ := hround hgap hfinish
      exact ⟨_, hstate, fun item => repeatFor_of_finish [] (hfilled item)⟩
    · cases hcons
  | cons lexeme rounds ih =>
    rcases repeatFor_cases hdone with hfinish | ⟨_, _, next, left, earlier, later, hcons, hagain,
      hlater, hreports⟩
    · obtain ⟨_, ⟨hstate⟩ | ⟨hstate⟩, hfilled⟩ := hround hgap hfinish
      exact ⟨_, hstate, fun item => repeatFor_of_finish _ (hfilled item)⟩
    · obtain ⟨rfl, rfl⟩ := List.cons.inj hcons
      obtain ⟨rfl, rfl⟩ := List.append_eq_nil_iff.mp hreports.symm
      obtain ⟨_, ⟨hstate⟩ | ⟨hstate⟩, hnext⟩ := hround hgap hagain
      obtain ⟨filled, hlast, hfilled⟩ := ih hstate hlater
      refine ⟨filled, hlast, fun item => ?_⟩
      rw [repeatFor_of_again lexeme rounds (hnext item), hfilled item]
      rfl

/-- A repetition of rounds that carry gaps on. -/
theorem repeating {again finish : Gaps σ} {round : σ → Parser (Turn σ)}
    (hround : Carries again round (InTurn again finish)) :
    Carries again (Parser.repeating round) finish :=
  fun _ _ hgap unread _ _ hdone => repeatFor hround unread hgap hdone

end Carries

section Lists

variable {gaps : Gaps α}

/-- A round that puts an item in front of those that are held. -/
theorem Carries.nextListed {item : Parser α} {closing : String} :
    Carries (InList gaps) (Parser.nextListed item closing)
      (InTurn (InList gaps) (InList gaps)) := by
  refine .after fun comma => .cond ?_ (.pure .finish)
  refine .after fun closed => .cond (.pure .finish) ?_
  exact .after fun next => .pure fun hitems => .again (hitems.cons next)

/-- An item may depend on those before it, but not on what stands in their blocks. -/
theorem Carries.nextUpTo {item : List α → Parser α} {separators : List String} {closing : String}
    (hsame : ∀ {items fill}, InList gaps items fill → ∀ filled, item (fill filled) = item items) :
    Carries (InList gaps) (Parser.nextUpTo item separators closing)
      (InTurn (InList gaps) (InList gaps)) := by
  refine .after fun closed => .cond (.pure .finish) ?_
  refine .after fun ended => .cond (.pure .finish) ?_
  refine .behind hsame fun next => .after fun comma => .cond ?_ ?_
  · exact .pure fun hitems => .again (hitems.cons next)
  · exact .pure fun hitems => .finish (hitems.cons next)

end Lists

end BraceLang
