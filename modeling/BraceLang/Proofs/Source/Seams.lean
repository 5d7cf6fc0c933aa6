import BraceLang.Proofs.Source.Layout

/-!
# Seams of a source

Where a piece ends depends on what is behind it at one character at most. A text that begins with a
character of no word, number or operator does not change what is read in front of it: each piece
before such a seam is the same whether the text is there or not.
-/

namespace BraceLang.Source

/-- A text that goes on no word, number or operator in front of it. -/
def Detached (text : List Char) : Prop :=
  ∀ c ∈ text.head?, isWordChar c = false ∧ c ≠ '.' ∧ ∀ first, isOperator first c = false

/-- Nothing goes on nothing. -/
theorem Detached.nil : Detached [] := nofun

section Seams

variable {afterWord : Bool} {c : Char} {text front back rest after more : List Char}
  (hmore : Detached more)
include hmore

omit hmore in
/-- A text is split at the same place in front of a character without the property. -/
theorem span_append {p : Char → Bool} (hend : ∀ d ∈ more.head?, p d = false)
    (hspan : text.span p = (front, back)) :
    (text ++ more).span p = (front, back ++ more) := by
  obtain ⟨rfl, hfront, hback⟩ := span_reads hspan
  rw [List.append_assoc]
  refine span_of_forall hfront fun d hhead => ?_
  cases back with
  | nil => exact hend d hhead
  | cons e others => exact hback d hhead

/-- A word ends at a seam, and a number does not go on there. -/
theorem splitWord_append (hsplit : splitWord afterWord text = (front, back)) :
    splitWord afterWord (text ++ more) = (front, back ++ more) := by
  have hend : ∀ d ∈ more.head?, isWordChar d = false := fun d hhead => (hmore d hhead).1
  unfold splitWord at hsplit ⊢
  rcases hspan : text.span isWordChar with ⟨whole, behind⟩
  rw [hspan] at hsplit
  rw [span_append hend hspan]
  dsimp only at hsplit ⊢
  split at hsplit
  · next digit others =>
    rw [List.cons_append, List.cons_append]
    split at hsplit
    · next hnumber =>
      rcases hfraction : (digit :: others).span isWordChar with ⟨fraction, last⟩
      have hlonger := span_append hend hfraction
      rw [hfraction] at hsplit
      obtain ⟨rfl, rfl⟩ := Prod.mk.inj hsplit
      rw [List.cons_append] at hlonger
      simp only [hnumber, if_true, hlonger]
    · next hnone =>
      obtain ⟨rfl, rfl⟩ := Prod.mk.inj hsplit
      simp only [hnone, if_false, List.cons_append, Bool.false_eq_true]
  · next hother =>
    obtain ⟨rfl, rfl⟩ := Prod.mk.inj hsplit
    split
    · next digit others hbehind =>
      -- the point stands before the seam and what would have to be a digit behind it
      rcases behind with _ | ⟨point, _ | ⟨d, last⟩⟩
      · obtain rfl : more = '.' :: digit :: others := hbehind
        exact absurd rfl (hmore '.' rfl).2.1
      · obtain ⟨rfl, hrest⟩ := List.cons.inj hbehind
        obtain rfl : more = digit :: others := hrest
        have hdigit : Unicode.isDigit digit = false :=
          Bool.eq_false_iff.mpr fun hdigit => by simpa [isWordChar_of_isDigit hdigit] using hend digit
        simp [hdigit]
      · obtain ⟨rfl, hrest⟩ := List.cons.inj hbehind
        exact absurd rfl (hother _ _)
    · rfl

/-- No operator goes on at a seam. -/
theorem operatorBehind_append (c : Char) (rest : List Char) :
    operatorBehind c (rest ++ more) =
      (operatorBehind c rest).map fun (second, after) => (second, after ++ more) := by
  cases rest with
  | nil =>
    cases more with
    | nil => rfl
    | cons d behind =>
      rw [List.nil_append, operatorBehind, if_neg (by simp [(hmore d rfl).2.2 c])]
      rfl
  | cons second after =>
    rw [List.cons_append, operatorBehind, operatorBehind]
    split <;> rfl

/-- An operator, a word or a symbol is the same in front of a seam. -/
theorem nextPlain_append (afterWord : Bool) (c : Char) (rest : List Char) :
    nextPlain afterWord c (rest ++ more) =
      (nextPlain afterWord c rest).map fun (piece, after) => (piece, after ++ more) := by
  unfold nextPlain
  rw [operatorBehind_append hmore]
  rcases operatorBehind c rest with _ | ⟨second, behind⟩
  · rcases hword : splitWord afterWord (c :: rest) with ⟨word, behind⟩
    have hlonger := splitWord_append hmore hword
    rw [List.cons_append] at hlonger
    simp only [Option.map_none, hlonger]
    split
    · rfl
    · split <;> rfl
  · rfl

/-- A piece in front of a seam is the same with what is behind the seam, unless that goes on a
comment. -/
theorem nextPiece_append {piece : Piece} (hcomment : ∀ d ∈ more.head?, d ≠ '/' ∧ d ≠ '*')
    (hpiece : nextPiece afterWord c rest = .ok (piece, after))
    (hline : ∀ body, piece = .lineComment body → ∀ d ∈ (after ++ more).head?, d = '\n') :
    nextPiece afterWord c (rest ++ more) = .ok (piece, after ++ more) := by
  by_cases hquote : c = '"'
  · subst hquote
    rcases hspan : rest.span (· != '"') with ⟨body, behind⟩
    unfold nextPiece at hpiece
    rw [if_pos rfl, hspan] at hpiece
    obtain ⟨hbody, ⟨rfl, -⟩ | ⟨last, rfl, rfl⟩⟩ := quoted_reads hspan
    · cases hpiece
    · obtain ⟨rfl, rfl⟩ := Prod.mk.inj (Except.ok.inj hpiece)
      rw [List.append_assoc, List.cons_append]
      exact nextPiece_quoted afterWord hbody _
  by_cases hblank : Unicode.isBlank c = true
  · rw [nextPiece_blank afterWord hblank] at hpiece ⊢
    obtain ⟨rfl, rfl⟩ := Prod.mk.inj (Except.ok.inj hpiece)
    rfl
  unfold nextPiece at hpiece
  rw [if_neg hquote, if_neg hblank] at hpiece
  split at hpiece
  · next line =>
    rcases hspan : line.span (· != '\n') with ⟨body, behind⟩
    obtain ⟨rfl, hinside, -⟩ := span_reads hspan
    have hbody : '\n' ∉ body := fun hmem => by simpa using hinside '\n' hmem
    rw [hspan] at hpiece
    obtain ⟨rfl, rfl⟩ := Prod.mk.inj (Except.ok.inj hpiece)
    rw [List.cons_append, List.append_assoc]
    exact nextPiece_lineComment afterWord hbody (hline body rfl)
  · next comment =>
    rcases hsplit : splitComment comment with _ | ⟨body, behind⟩
    · rw [hsplit] at hpiece
      cases hpiece
    · obtain ⟨rfl, hfirst⟩ := splitComment_some hsplit
      rw [hsplit] at hpiece
      obtain ⟨rfl, rfl⟩ := Prod.mk.inj (Except.ok.inj hpiece)
      rw [List.cons_append, List.append_assoc, List.cons_append, List.cons_append]
      exact nextPiece_blockComment afterWord hfirst _
  · next hslashes hstar =>
    rw [nextPiece_plain afterWord hquote (Bool.eq_false_iff.mpr hblank) ?_]
    · rw [nextPlain_append hmore, hpiece]
      rfl
    · rintro rfl d hhead
      cases rest with
      | nil => exact hcomment d hhead
      | cons second behind =>
        obtain rfl := Option.some.inj hhead
        constructor
        · rintro rfl
          exact hslashes behind rfl rfl
        · rintro rfl
          exact hstar behind rfl rfl

/-- A piece that leaves all that is behind a seam is the same without it. -/
theorem nextPiece_of_append {piece : Piece}
    (hpiece : nextPiece afterWord c (rest ++ more) = .ok (piece, after ++ more)) :
    nextPiece afterWord c rest = .ok (piece, after) := by
  have hstep := nextPiece_reads afterWord c (rest ++ more)
  rw [hpiece] at hstep
  obtain ⟨htext, hprecedes⟩ := hstep
  rw [← List.cons_append, ← List.append_assoc] at htext
  have hown : c :: rest = piece.text ++ after := List.append_cancel_right htext
  -- what is neither a blank, a comment nor a quoted text is read in the same way on either side
  have hplain (hquote : c ≠ '"') (hblank : Unicode.isBlank c = false)
      (hcomment : c = '/' → ∀ d ∈ (rest ++ more).head?, d ≠ '/' ∧ d ≠ '*') :
      nextPiece afterWord c rest = .ok (piece, after) := by
    rw [nextPiece_plain afterWord hquote hblank hcomment, nextPlain_append hmore] at hpiece
    rw [nextPiece_plain afterWord hquote hblank fun hslash d hhead => hcomment hslash d
      (List.mem_head?_append_of_mem_head? hhead)]
    cases hnext : nextPlain afterWord c rest with
    | error fault =>
      rw [hnext] at hpiece
      cases hpiece
    | ok found =>
      rw [hnext] at hpiece
      obtain ⟨rfl, hbehind⟩ := Prod.mk.inj (Except.ok.inj hpiece)
      rw [← List.append_cancel_right hbehind]
  cases hprecedes with
  | blank hblank =>
    obtain ⟨rfl, rfl⟩ := List.cons.inj hown
    exact nextPiece_blank afterWord hblank _
  | @lineComment body _ hbody hend =>
    obtain ⟨rfl, rfl⟩ := List.cons.inj hown
    exact nextPiece_lineComment afterWord hbody fun d hhead =>
      hend d (List.mem_head?_append_of_mem_head? hhead)
  | @blockComment body _ hfirst =>
    rw [Piece.text, List.cons_append, List.cons_append, List.append_assoc] at hown
    obtain ⟨rfl, rfl⟩ := List.cons.inj hown
    exact nextPiece_blockComment afterWord hfirst _
  | @quoted body _ hbody =>
    rw [Piece.text, List.cons_append, List.append_assoc] at hown
    obtain ⟨rfl, rfl⟩ := List.cons.inj hown
    exact nextPiece_quoted afterWord hbody _
  | operator hoperator =>
    obtain ⟨rfl, rfl⟩ := List.cons.inj hown
    exact nextPiece_operator afterWord hoperator _
  | @word text _ hword _ =>
    have hhead : c ∈ text.head? := by
      cases text with
      | nil => exact absurd rfl hword.ne_nil
      | cons d others =>
        obtain ⟨rfl, -⟩ := List.cons.inj hown
        rfl
    obtain ⟨hquote, hblank, hslash, -⟩ := hword.begins hhead
    exact hplain hquote hblank fun h => absurd h hslash
  | @symbol mark _ hsymbol halone =>
    obtain ⟨rfl, rfl⟩ := List.cons.inj hown
    refine hplain ?_ (isSymbol_excludes hsymbol).2 fun hslash d hhead => ?_
    · rintro rfl
      exact absurd hsymbol (by decide)
    · have hnone := (halone d hhead).2
      exact ⟨fun h => hnone ⟨hslash, .inl h⟩, fun h => hnone ⟨hslash, .inr h⟩⟩

end Seams

end BraceLang.Source
