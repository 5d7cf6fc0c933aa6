import BraceLang.Proofs.Outline.Basic
import BraceLang.Proofs.Parsing.Rounds

/-!
# Reading without regard to what is far behind

A parser that comes to a value in front of some place, without a report, does not depend on what is
behind that place, as long as it cannot have looked over it. It looks at one lexeme behind what it
passes, and behind a parenthesis or an angle bracket at a second one. So it is enough that something
is left in front of the place, and more than one such mark.
-/

namespace BraceLang

open BraceLang.Parser

/-- Enough is left in front of a place: no parser looks over it. -/
def Ample (left : List Lexeme) : Prop :=
  ∃ lexeme rest, left = lexeme :: rest ∧ (rest = [] → lexeme.isMarkOf deciders = false)

/-- Where enough is left, there is enough with more in front of it. -/
theorem Ample.of_suffix {left more : List Lexeme} (hample : Ample left) (hmore : left <:+ more) :
    Ample more := by
  obtain ⟨lexeme, rest, rfl, hlexeme⟩ := hample
  obtain ⟨front, rfl⟩ := hmore
  cases front with
  | nil => exact ⟨lexeme, rest, rfl, hlexeme⟩
  | cons first front => exact ⟨first, front ++ lexeme :: rest, rfl, by simp⟩

/-- Something is left where enough is. -/
theorem Ample.ne_nil {left : List Lexeme} (hample : Ample left) : left ≠ [] := by
  obtain ⟨lexeme, rest, rfl, -⟩ := hample
  exact List.cons_ne_nil lexeme rest

section Places

variable {α : Type} {near left far : List Lexeme}

/-- What is read in front of a place leaves no more than was in front of it. -/
theorem Parser.Runs.left_suffix {parser : Parser α} (hruns : parser.Runs) {value : α}
    {reports : List Report} (hdone : parser (near ++ far) = .done value (left ++ far) reports) :
    left <:+ near := by
  obtain ⟨passed, hpassed⟩ := hruns.suffix hdone
  rw [← List.append_assoc] at hpassed
  exact ⟨passed, List.append_cancel_right hpassed⟩

/-- What is left behind the first of two parsers, if the second one stops in front of a place. -/
theorem Parser.Runs.exists_middle {parser : Parser α} (hruns : parser.Runs) {value : α}
    {middle : List Lexeme} {reports : List Report}
    (hdone : parser middle = .done value (left ++ far) reports) :
    ∃ between, middle = between ++ far ∧ left <:+ between := by
  obtain ⟨passed, rfl⟩ := hruns.suffix hdone
  exact ⟨passed ++ left, (List.append_assoc ..).symm, List.suffix_append passed left⟩

/-- Rounds never go back. -/
theorem Rounds.suffix {σ : Type} {round : σ → Parser (Turn σ)} {state last : σ}
    {unread rest : List Lexeme} {reports : List Report}
    (hrounds : Rounds round state unread last rest reports) (hruns : ∀ state, (round state).Runs) :
    rest <:+ unread := by
  induction hrounds with
  | finish hround => exact (hruns _).suffix hround
  | again hround _ ih => exact ih.trans ((hruns _).suffix hround)

end Places

/-- A parser does not depend on what is behind a place that it stops in front of. -/
def Parser.IsLocal {α : Type} (parser : Parser α) (known : Option Lexeme) : Prop :=
  ∀ ⦃near left far other : List Lexeme⦄ ⦃value : α⦄, far.length ≤ other.length →
    (∀ lexeme, known = some lexeme → near.head? = some lexeme) → Ample left →
    parser (near ++ far) = .done value (left ++ far) [] →
    parser (near ++ other) = .done value (left ++ other) []

namespace Parser.IsLocal

variable {α β σ : Type} {known : Option Lexeme}

/-- A sequence is local when each part is, and only the first may rely on the token it begins at. -/
theorem bind {parser : Parser α} {next : α → Parser β} (hruns : ∀ value, (next value).Runs)
    (hparser : parser.IsLocal known) (hnext : ∀ value, (next value).IsLocal none) :
    (parser >>= next).IsLocal known := by
  intro near left far other value hlength hknown hample hdone
  obtain ⟨first, middle, hfirst, hlast⟩ := exists_of_bind_eq_silent hdone
  obtain ⟨between, rfl, hbetween⟩ := (hruns first).exists_middle hlast
  rw [bind_of_silent _ (hparser hlength hknown (hample.of_suffix hbetween) hfirst)]
  exact hnext first hlength (fun _ h => nomatch h) hample hlast

/-- The lexeme that is next is in front of the place. -/
theorem look {next : Option Lexeme → Parser α} (hruns : ∀ found, (next found).Runs)
    (hnext : ∀ lexeme, (next (some lexeme)).IsLocal (some lexeme)) :
    (peek >>= next).IsLocal known := by
  intro near left far other value hlength hknown hample hdone
  have hleft := (peek_runs.bind hruns).left_suffix hdone
  rw [peek_bind] at hdone ⊢
  obtain ⟨lexeme, rest, rfl⟩ := List.exists_cons_of_ne_nil
    ((hample.of_suffix hleft).ne_nil)
  exact hnext lexeme hlength (fun _ h => h) hample hdone

/-- A lexeme of which nothing is asked but what it is leaves all in front of the place. -/
private theorem of_left {near left far : List Lexeme} {value : α} (parser : Parser α)
    (hunread : parser (near ++ far) = .done value (near ++ far) [])
    {other : α} (hdone : parser (near ++ far) = .done other (left ++ far) []) :
    other = value ∧ left = near := by
  rw [hunread] at hdone
  obtain ⟨rfl, hleft, -⟩ := Reply.done.inj hdone
  exact ⟨rfl, (List.append_cancel_right hleft).symm⟩

/-- Looking one token further is local where the first token is known to be a deciding mark. -/
theorem second {lexeme : Lexeme} (hlexeme : lexeme.isMarkOf deciders = true) :
    peekSecond.IsLocal (some lexeme) := by
  intro near left far other value _ hknown hample hdone
  obtain ⟨rfl, rfl⟩ := of_left peekSecond rfl hdone
  obtain ⟨first, rest, rfl, hsingle⟩ := hample
  obtain rfl : first = lexeme := Option.some.inj (hknown lexeme rfl)
  cases rest with
  | nil => simp [hlexeme] at hsingle
  | cons next rest => rfl

/-- A look one token further is local when it counts only behind a deciding mark. -/
theorem both {mark : String} {test : Option Lexeme → Bool} (hmark : mark ∈ deciders) :
    Parser.IsLocal (do
      let first ← nextIsMark [mark]
      let second ← peekSecond
      return first && test second) known := by
  intro near left far other value _ _ hample hdone
  obtain ⟨rfl, rfl⟩ := of_left (do
    let first ← nextIsMark [mark]
    let second ← peekSecond
    return first && test second) rfl hdone
  obtain ⟨first, rest, rfl, hsingle⟩ := hample
  cases rest with
  | nil =>
    have hnot : first.isMarkOf [mark] = false := by
      refine Bool.eq_false_iff.mpr fun hfirst => ?_
      have hdecider := Lexeme.isMarkOf_subset hfirst (by simpa using hmark)
      rw [hsingle rfl] at hdecider
      cases hdecider
    change Reply.done (first.isMarkOf [mark] && _) _ _ = .done (first.isMarkOf [mark] && _) _ _
    rw [hnot, Bool.false_and, Bool.false_and]
    rfl
  | cons next rest => rfl

/-- Passing one lexeme in front of the place. -/
private theorem of_tail {near left far : List Lexeme} (hample : Ample left)
    (htail : (near ++ far).tail = left ++ far) (other : List Lexeme) :
    (near ++ other).tail = left ++ other := by
  cases near with
  | nil =>
    have hlength := congrArg List.length htail
    have hpositive := List.length_pos_iff.mpr hample.ne_nil
    simp only [List.nil_append, List.length_tail, List.length_append] at hlength
    omega
  | cons lexeme near =>
    obtain rfl : near = left := List.append_cancel_right htail
    rfl

/-- Advancing is local. -/
theorem advance : advance.IsLocal known := by
  intro near left far other value _ _ hample hdone
  have htail : (near ++ far).tail = left ++ far := (Reply.done.inj hdone).2.1
  rw [← of_tail hample htail other]
  rfl

/-- So is reading a numeral. -/
theorem numeral (text : String) : (numeral text).IsLocal known := by
  intro near left far other value _ _ hample hdone
  unfold Parser.numeral at hdone ⊢
  cases hread : Numeral.read text with
  | error error => simp [hread] at hdone
  | ok number =>
    rw [hread] at hdone
    obtain ⟨rfl, htail, -⟩ := Reply.done.inj hdone
    exact congrArg (Reply.done number · []) (of_tail hample htail other)

/-- The rounds in front of the place are the same, and no more rounds are needed. -/
theorem repeating {round : σ → Parser (Turn σ)} (hruns : ∀ state, (round state).Runs)
    (hround : ∀ state, (round state).IsLocal none) (state : σ) :
    (repeating round state).IsLocal known := by
  intro near left far other last hlength _ hample hdone
  refine repeatFor_induction (motive := fun rounds state unread reports =>
    ∀ near, unread = near ++ far → reports = [] → ∀ more : List Lexeme,
      rounds.length ≤ more.length →
      repeatFor round more state (near ++ other) = .done last (left ++ other) [])
    ?_ ?_ hdone near rfl rfl (near ++ other) (by simpa using hlength)
  · rintro rounds state _ _ hfinish near rfl rfl more -
    exact repeatFor_of_finish more
      (hround state hlength (fun _ h => nomatch h) hample hfinish)
  · rintro lexeme rounds state next _ middle earlier later hagain hrest ih near rfl hsilent more
      hmore
    obtain ⟨rfl, rfl⟩ := List.append_eq_nil_iff.mp hsilent
    obtain ⟨passed, rfl⟩ := (Rounds.of_repeatFor hrest).suffix hruns
    have hbetween := List.suffix_append passed left
    rw [← List.append_assoc] at hagain ih
    obtain ⟨first, more, rfl⟩ := List.exists_cons_of_length_pos
      (Nat.lt_of_lt_of_le (Nat.succ_pos _) hmore)
    rw [repeatFor_of_again first more
      (hround state hlength (fun _ h => nomatch h) (hample.of_suffix hbetween) hagain),
      ih (passed ++ left) rfl rfl more (Nat.le_of_succ_le_succ hmore)]
    rfl

/-- Recovery is local when the statement is, since only silent runs are compared. -/
theorem recovered {parser : Parser Statement} (hparser : parser.IsLocal none) :
    (recovered parser).IsLocal known := by
  intro near left far other value hlength _ hample hdone
  unfold Parser.recovered at hdone ⊢
  cases hreply : parser (near ++ far) with
  | done item rest reports =>
    rw [hreply] at hdone
    have hitem := hreply.trans hdone
    rw [hparser hlength (fun _ h => nomatch h) hample hitem]
  | failed report rest reports =>
    rw [hreply] at hdone
    simp at hdone
  | stopped halt =>
    rw [hreply] at hdone
    cases hdone

/-- Passing a token by is local when the parser is. -/
theorem passing {parser : Parser α} (hparser : parser.IsLocal none) :
    (passing parser).IsLocal known := by
  intro near left far other value hlength _ hample hdone
  unfold Parser.passing at hdone ⊢
  cases hreply : parser (near ++ far) with
  | done item rest reports =>
    rw [hreply] at hdone
    obtain ⟨rfl, hrest, rfl⟩ := Reply.done.inj hdone
    have hsuffix : left ++ far <:+ rest := by
      rw [← hrest]
      split
      · exact List.suffix_refl rest
      · exact List.tail_suffix rest
    obtain ⟨passed, rfl⟩ := hsuffix
    rw [← List.append_assoc] at hreply hrest
    have hbetween := List.suffix_append passed left
    rw [hparser hlength (fun _ h => nomatch h) (hample.of_suffix hbetween) hreply]
    simp only [List.length_append, Nat.add_lt_add_iff_right] at hrest ⊢
    split at hrest
    · next hless =>
      rw [if_pos hless, List.append_cancel_right hrest]
    · next hless =>
      rw [if_neg hless, of_tail hample hrest other]
  | failed report rest reports =>
    rw [hreply] at hdone
    cases hdone
  | stopped halt =>
    rw [hreply] at hdone
    cases hdone

end Parser.IsLocal

/-- Whatever has an outline does not depend on what is behind a place that it stops in front of. -/
theorem Outline.isLocal {α : Type} {allowance : Allowance} {known : Option Lexeme}
    {parser : Parser α} (outline : Outline allowance known parser) : parser.IsLocal known := by
  induction outline with
  | pure value =>
    intro near left far other result _ _ _ hdone
    obtain ⟨rfl, hleft, -⟩ := Reply.done.inj hdone
    rw [List.append_cancel_right hleft]
    rfl
  | bind _ next ihParser ihNext => exact .bind (fun value => (next value).runs) ihParser ihNext
  | cond condition _ _ ihYes ihNo =>
    split
    · exact ihYes ‹_›
    · exact ihNo ‹_›
  | anyway _ ih => exact fun _ _ _ _ _ hlength _ => ih hlength fun _ h => nomatch h
  | boundary _ ih | plain _ ih | nested _ ih | allowing _ _ ih | call _ ih => exact ih
  | asking next _ ih => exact ih _
  | look atEnd before _ ihSome =>
    refine .look (fun found => ?_) ihSome
    cases found with
    | none => exact atEnd.runs
    | some lexeme => exact (before lexeme).runs
  | second hlexeme => exact .second hlexeme
  | both mark test hmark => exact .both hmark
  | advance => exact .advance
  | complain expected => exact fun _ _ _ _ _ _ _ _ hdone => nomatch (Reply.done.inj hdone).2.2
  | reject | rejectPassing | tooDeep => exact fun _ _ _ _ _ _ _ _ hdone => nomatch hdone
  | numeral text => exact .numeral text
  | repeating chain state round ih => exact .repeating (fun state => (round state).runs) ih state
  | recovered _ ih => exact ih.recovered
  | passing _ ih => exact ih.passing

end BraceLang
