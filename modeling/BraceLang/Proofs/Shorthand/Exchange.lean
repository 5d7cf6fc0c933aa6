import BraceLang.Proofs.Outline.Reaching

/-!
# Something else in one place of an input

What is behind one of the lexemes of an input is exchanged. If one of the parsers that are called
reads over that lexeme and comes to the same value, and leaves the same unread, then all those in
whose parts it is called do so too: what is read before the call does not look that far, and what is
read behind it finds the same lexemes.
-/

namespace BraceLang

open BraceLang.Parser

/-- What is behind a lexeme, and what is put there for it. The lexeme is no reason to ask what is
behind it, and there is not less behind it than there was. -/
structure Exchange where
  seam : Lexeme
  old : List Lexeme
  new : List Lexeme
  seam_isMarkOf : seam.isMarkOf deciders = false
  length_le : old.length ≤ new.length

variable {α β σ : Type} {exchange : Exchange}

/-- Where a parser reads over the lexeme of an exchange, it comes to the same value and leaves the
same unread with either behind the lexeme. -/
def Parser.Exchanges (exchange : Exchange) (parser : Parser α) (near : List Lexeme) : Prop :=
  ∀ ⦃value : α⦄ ⦃rest : List Lexeme⦄,
    parser (near ++ exchange.seam :: exchange.old) = .done value rest [] →
    rest <:+ exchange.old ∧ parser (near ++ exchange.seam :: exchange.new) = .done value rest []

/-- What stops in front of the lexeme of an exchange does not look over it. -/
theorem Outline.stops_before {allowance : Allowance} {known : Option Lexeme}
    {parser : Parser α} (outline : Outline allowance known parser) {near left : List Lexeme}
    (hknown : ∀ lexeme, known = some lexeme →
      (near ++ exchange.seam :: exchange.old).head? = some lexeme) {value : α}
    (hdone : parser (near ++ exchange.seam :: exchange.old) =
      .done value (left ++ exchange.seam :: exchange.old) []) :
    parser (near ++ exchange.seam :: exchange.new) =
      .done value (left ++ exchange.seam :: exchange.new) [] := by
  have hample : Ample (left ++ [exchange.seam]) :=
    Ample.of_suffix ⟨exchange.seam, [], rfl, fun _ => exchange.seam_isMarkOf⟩
      (List.suffix_append left _)
  have hhead (lexeme : Lexeme) (hlexeme : known = some lexeme) :
      (near ++ [exchange.seam]).head? = some lexeme := by
    rw [← hknown lexeme hlexeme]
    cases near <;> rfl
  rw [List.append_cons near, List.append_cons left] at hdone ⊢
  exact outline.isLocal exchange.length_le hhead hample hdone

namespace Parser.Exchanges

variable {near : List Lexeme}

/-- What follows a part that reads over the lexeme finds what it found. -/
theorem bind {parser : Parser α} {next : α → Parser β} (hparser : parser.Exchanges exchange near)
    (hruns : ∀ value, (next value).Runs) : (parser >>= next).Exchanges exchange near := by
  intro value rest hdone
  obtain ⟨first, middle, hfirst, hlast⟩ := exists_of_bind_eq_silent hdone
  obtain ⟨hmiddle, hother⟩ := hparser hfirst
  refine ⟨((hruns first).suffix hlast).trans hmiddle, ?_⟩
  rw [bind_of_silent _ hother, hlast]

/-- The lexeme is read over in what follows a part that stops in front of it. -/
theorem behind {allowance : Allowance} {known : Option Lexeme} {parser : Parser α}
    {next : α → Parser β} (outline : Outline allowance known parser)
    (hknown : ∀ lexeme, known = some lexeme →
      (near ++ exchange.seam :: exchange.old).head? = some lexeme)
    {first : α} {left : List Lexeme} {reports : List Report}
    (hfirst : parser (near ++ exchange.seam :: exchange.old) =
      .done first (left ++ exchange.seam :: exchange.old) reports)
    (hnext : (next first).Exchanges exchange left) : (parser >>= next).Exchanges exchange near := by
  intro value rest hdone
  obtain ⟨other, middle, hother, hlast⟩ := exists_of_bind_eq_silent hdone
  rw [hfirst] at hother
  obtain ⟨rfl, rfl, rfl⟩ := Reply.done.inj hother
  obtain ⟨hrest, hsame⟩ := hnext hlast
  exact ⟨hrest, (bind_of_silent _ (outline.stops_before hknown hfirst)).trans hsame⟩

section Rounds

variable {round : σ → Parser (Turn σ)} {allowance : Allowance}

/-- The lexeme is read over in one of the rounds of a repetition, and the rounds behind that one are
those that there were. -/
theorem repeatFor (outline : ∀ state, Outline allowance none (round state)) {state held : σ}
    {left : List Lexeme}
    (hrounds : RoundsTo round state (near ++ exchange.seam :: exchange.old) held
      (left ++ exchange.seam :: exchange.old))
    (hround : (round held).Exchanges exchange left) {last : σ} {rest fuel more : List Lexeme}
    (hmore : fuel.length ≤ more.length)
    (hdone : Parser.repeatFor round fuel state (near ++ exchange.seam :: exchange.old) =
      .done last rest []) :
    rest <:+ exchange.old ∧
      Parser.repeatFor round more state (near ++ exchange.seam :: exchange.new) =
        .done last rest [] := by
  generalize hunread : near ++ exchange.seam :: exchange.old = unread at hrounds hdone
  generalize hplace : left ++ exchange.seam :: exchange.old = place at hrounds
  induction hrounds generalizing near fuel more with
  | here =>
    obtain rfl := List.append_cancel_right (hplace.trans hunread.symm)
    subst hplace
    rcases repeatFor_cases hdone with hfinish |
      ⟨lexeme, fewer, next, middle, earlier, later, rfl, hagain, hlater, hreports⟩
    · obtain ⟨hrest, hother⟩ := hround hfinish
      exact ⟨hrest, repeatFor_of_finish more hother⟩
    · obtain ⟨rfl, rfl⟩ := List.append_eq_nil_iff.mp hreports.symm
      obtain ⟨hmiddle, hother⟩ := hround hagain
      obtain ⟨first, more, rfl⟩ := List.exists_cons_of_length_pos
        (Nat.lt_of_lt_of_le (Nat.succ_pos _) hmore)
      have hrest := (Rounds.of_repeatFor hlater).suffix fun state => (outline state).runs
      refine ⟨hrest.trans hmiddle, ?_⟩
      rw [repeatFor_of_again first more hother,
        repeatFor_of_length_le (Nat.le_of_succ_le_succ hmore) hlater]
      rfl
  | @again state next last unread middle rest reports hagain hlater ih =>
    subst hunread
    obtain ⟨passed, rfl⟩ := hlater.suffix fun state => (outline state).runs
    subst hplace
    rcases repeatFor_cases hdone with hfinish |
      ⟨lexeme, fewer, next', middle, earlier, later, rfl, hturn, hrest, hreports⟩
    · rw [hagain] at hfinish
      cases hfinish
    · obtain ⟨rfl, rfl⟩ := List.append_eq_nil_iff.mp hreports.symm
      rw [hagain] at hturn
      obtain ⟨hnext, rfl, rfl⟩ := Reply.done.inj hturn
      obtain rfl := Turn.again.inj hnext
      rw [← List.append_assoc] at hagain
      obtain ⟨first, more, rfl⟩ := List.exists_cons_of_length_pos
        (Nat.lt_of_lt_of_le (Nat.succ_pos _) hmore)
      obtain ⟨hsuffix, hother⟩ :=
        ih hround (Nat.le_of_succ_le_succ hmore) (List.append_assoc ..) hrest rfl
      refine ⟨hsuffix, ?_⟩
      rw [repeatFor_of_again first more
        ((outline state).stops_before (fun _ h => nomatch h) hagain), hother]
      rfl

/-- The lexeme is read over in one of the rounds of a repetition. -/
theorem repeating (outline : ∀ state, Outline allowance none (round state)) {state held : σ}
    {left : List Lexeme}
    (hrounds : RoundsTo round state (near ++ exchange.seam :: exchange.old) held
      (left ++ exchange.seam :: exchange.old))
    (hround : (round held).Exchanges exchange left) :
    (Parser.repeating round state).Exchanges exchange near := by
  intro last rest hdone
  refine repeatFor outline hrounds hround ?_ hdone
  have hlength := exchange.length_le
  simp only [List.length_append, List.length_cons]
  omega

end Rounds

/-- A statement that exchanges is not recovered, so it still exchanges. -/
theorem recovered {parser : Parser Statement} (hparser : parser.Exchanges exchange near) :
    (Parser.recovered parser).Exchanges exchange near := by
  intro item rest hdone
  obtain ⟨hrest, hother⟩ := hparser (done_of_recovered hdone)
  exact ⟨hrest, recovered_of_done hother⟩

/-- A parser that reads over a lexeme leaves less unread. -/
theorem passing {parser : Parser α} (hparser : parser.Exchanges exchange near) :
    (Parser.passing parser).Exchanges exchange near := by
  intro value rest hdone
  obtain ⟨left, hleft, hrest⟩ := done_of_passing hdone
  obtain ⟨hsuffix, hother⟩ := hparser hleft
  have hlength := hsuffix.length_le
  have hmore := exchange.length_le
  rw [if_pos (by simp only [List.length_append, List.length_cons]; omega)] at hrest
  subst hrest
  refine ⟨hsuffix, passing_of_done hother ?_⟩
  simp only [List.length_append, List.length_cons]
  omega

end Parser.Exchanges

/-- If a parser that is called reads over the lexeme of an exchange and comes to the same, then so
does every parser in whose parts it is called. -/
theorem Outline.Reaches.exchanges {goal : Parser β} {inner near : List Lexeme}
    {allowance : Allowance} {known : Option Lexeme} {parser : Parser α}
    {outline : Outline allowance known parser}
    (hreaches : outline.Reaches goal (inner ++ exchange.seam :: exchange.old)
      (near ++ exchange.seam :: exchange.old))
    (hgoal : goal.Exchanges exchange inner)
    (hknown : ∀ lexeme, known = some lexeme →
      (near ++ exchange.seam :: exchange.old).head? = some lexeme) :
    parser.Exchanges exchange near := by
  generalize hunread : near ++ exchange.seam :: exchange.old = unread at hreaches hknown
  induction hreaches generalizing near with
  | here outline =>
    obtain rfl := List.append_cancel_right hunread
    exact hgoal
  | @first _ _ _ _ _ _ _ following _ _ ih =>
    exact (ih hunread hknown).bind fun value => (following value).runs
  | @behind _ _ _ _ _ _ outline following unread rest value _ hdone hlater ih =>
    subst hunread
    obtain ⟨passed, rfl⟩ := hlater.suffix
    rw [← List.append_assoc] at hdone
    exact .behind outline hknown hdone (ih (List.append_assoc ..) fun _ h => nomatch h)
  | affirmed hcondition _ ih =>
    rw [if_pos hcondition]
    exact ih hunread hknown
  | denied hcondition _ ih =>
    rw [if_neg hcondition]
    exact ih hunread hknown
  | anyway _ ih => exact ih hunread fun _ h => nomatch h
  | lookEnd => exact absurd hunread (by simp)
  | @look _ _ _ next atEnd before lexeme rest _ ih =>
    have hhead (behind : List Lexeme) :
        (near ++ exchange.seam :: behind).head? = some lexeme := by
      have hfirst := congrArg List.head? hunread
      cases near <;> exact hfirst
    intro value last hdone
    rw [peek_bind, hhead] at hdone
    rw [peek_bind, hhead]
    exact ih hunread (fun _ h => h) hdone
  | @round _ _ _ _ _ _ outline _ _ hrounds hround ih =>
    subst hunread
    obtain ⟨passed, rfl⟩ := hround.suffix
    rw [← List.append_assoc] at hrounds
    exact .repeating outline hrounds (ih (List.append_assoc ..) fun _ h => nomatch h)
  | nested _ ih | boundary _ ih | plain _ ih | allowing _ ih | asking _ ih | call _ ih =>
    exact ih hunread hknown
  | recovered _ ih => exact (ih hunread hknown).recovered
  | passing _ ih => exact (ih hunread hknown).passing

end BraceLang
