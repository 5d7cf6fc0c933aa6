import BraceLang.Source.Tokens
import Mathlib.Data.List.TakeDrop
import Mathlib.Data.List.TakeWhile

/-!
# What the pieces of a source are

A piece is described here by its characters and by what may stand behind it, without saying how it
is found. A step of the scan reads such a piece or stops at a fault that the rest of the text
shows, and so a whole scan is a row of such pieces that leaves no character out.
-/

namespace BraceLang.Source

/-- A word: characters of words, or digits, a point and more characters of words that begin with a
digit. -/
inductive IsWord : List Char → Prop
  | plain {text : List Char} : text ≠ [] → (∀ c ∈ text, isWordChar c = true) → IsWord text
  | pointed {whole : List Char} {digit : Char} {more : List Char} :
    (∀ c ∈ whole, Unicode.isDigit c = true) → Unicode.isDigit digit = true →
      (∀ c ∈ more, isWordChar c = true) → IsWord (whole ++ '.' :: digit :: more)

/-- A word is never empty. -/
theorem IsWord.ne_nil {text : List Char} (hword : IsWord text) : text ≠ [] := by
  cases hword with
  | plain hsome _ => exact hsome
  | pointed _ _ _ => exact List.append_ne_nil_of_right_ne_nil _ (List.cons_ne_nil _ _)

/-- A mark that has no part in a comment or in an operator with what stands behind it. -/
def IsAlone (mark : Char) (after : List Char) : Prop :=
  ∀ c ∈ after.head?, isOperator mark c = false ∧ ¬(mark = '/' ∧ (c = '/' ∨ c = '*'))

/-- A piece as it can stand before a text. Comments end where they can first, and words do not. -/
inductive Piece.Precedes : Piece → List Char → Prop
  | blank {c : Char} {after : List Char} : Unicode.isBlank c = true → (blank c).Precedes after
  | lineComment {body after : List Char} : '\n' ∉ body → (∀ c ∈ after.head?, c = '\n') →
    (lineComment body).Precedes after
  | blockComment {body after : List Char} : ¬['*', '/'] <:+: body ++ ['*'] →
    (blockComment body).Precedes after
  | word {text after : List Char} : IsWord text → (∀ c ∈ after.head?, isWordChar c = false) →
    (word text).Precedes after
  | quoted {body after : List Char} : '"' ∉ body → (quoted body).Precedes after
  | operator {first second : Char} {after : List Char} : isOperator first second = true →
    (operator first second).Precedes after
  | symbol {c : Char} {after : List Char} : isSymbol c = true → IsAlone c after →
    (symbol c).Precedes after

/-- A fault that a text shows at its beginning. -/
inductive Fault.Opens : Fault → List Char → Prop
  | unterminatedString {body : List Char} : '"' ∉ body → unterminatedString.Opens ('"' :: body)
  | unterminatedComment {body : List Char} : ¬['*', '/'] <:+: body →
    unterminatedComment.Opens ('/' :: '*' :: body)
  | invalidCharacter {c : Char} {after : List Char} : Unicode.isBlank c = false →
    isWordChar c = false → isSymbol c = false → c ≠ '"' → (invalidCharacter c).Opens (c :: after)

/-- A scan of a text: a row of pieces that ends with the text or at a fault. -/
inductive Scan.Reads : Scan → List Char → Prop
  | ended : Scan.Reads ⟨[], none⟩ []
  | halted {fault : Fault} {text : List Char} : fault.Opens text →
    Scan.Reads ⟨[], some (fault, text)⟩ text
  | piece {piece : Piece} {scan : Scan} {after : List Char} : piece.Precedes after →
    scan.Reads after → Scan.Reads { scan with pieces := piece :: scan.pieces } (piece.text ++ after)

/-- A text is split before the first character without a property. -/
theorem span_reads {p : Char → Bool} {text front back : List Char}
    (hspan : text.span p = (front, back)) :
    front ++ back = text ∧ (∀ c ∈ front, p c = true) ∧ ∀ c ∈ back.head?, p c = false := by
  rw [List.span_eq_takeWhile_dropWhile] at hspan
  obtain ⟨rfl, rfl⟩ := Prod.mk.inj hspan
  refine ⟨List.takeWhile_append_dropWhile, fun c hmem => ?_, fun c hhead => ?_⟩
  · exact List.mem_takeWhile_imp hmem
  · have hfails := List.head?_dropWhile_not p text
    rwa [Option.mem_def.mp hhead] at hfails

/-- A comment that is closed is split at its first end. -/
theorem splitComment_some {text body after : List Char}
    (hsplit : splitComment text = some (body, after)) :
    text = body ++ '*' :: '/' :: after ∧ ¬['*', '/'] <:+: body ++ ['*'] := by
  induction text generalizing body with
  | nil => cases hsplit
  | cons c rest ih =>
    unfold splitComment at hsplit
    split at hsplit
    · next behind =>
      obtain ⟨rfl, rfl⟩ := Prod.mk.inj (Option.some.inj hsplit)
      refine ⟨rfl, fun hinside => ?_⟩
      have hlength := hinside.length_le
      simp at hlength
    · next hother =>
      obtain ⟨⟨inner, behind⟩, hinner, hpair⟩ := Option.map_eq_some_iff.mp hsplit
      obtain ⟨rfl, rfl⟩ := Prod.mk.inj hpair
      obtain ⟨rfl, hfirst⟩ := ih hinner
      refine ⟨rfl, fun hinside => ?_⟩
      rcases List.infix_cons_iff.mp hinside with hhead | hlater
      · obtain ⟨rfl, hslash⟩ := List.cons_prefix_cons.mp hhead
        cases inner with
        | nil => simp [List.cons_prefix_cons] at hslash
        | cons d more =>
          obtain ⟨rfl, -⟩ := List.cons_prefix_cons.mp hslash
          exact hother _ rfl rfl
      · exact hfirst hlater

/-- A comment that is split nowhere has no end. -/
theorem splitComment_none {text : List Char} (hsplit : splitComment text = none) :
    ¬['*', '/'] <:+: text := by
  induction text with
  | nil => simp
  | cons c rest ih =>
    unfold splitComment at hsplit
    split at hsplit
    · cases hsplit
    · next hother =>
      intro hinside
      rcases List.infix_cons_iff.mp hinside with hhead | hlater
      · obtain ⟨rfl, behind, rfl⟩ := List.cons_prefix_cons.mp hhead
        exact hother behind rfl rfl
      · exact ih (Option.map_eq_none_iff.mp hsplit) hlater

/-- A digit is a character that words are made of. -/
theorem isWordChar_of_isDigit {c : Char} (hdigit : Unicode.isDigit c = true) :
    isWordChar c = true := by
  rw [isWordChar, Unicode.isAlphanumeric_of_isDigit hdigit, Bool.true_or]

/-- What is split off is the longest word there. -/
theorem splitWord_reads {afterWord : Bool} {text front back : List Char}
    (hsplit : splitWord afterWord text = (front, back)) :
    front ++ back = text ∧ (front ≠ [] → IsWord front) ∧
      ∀ c ∈ back.head?, isWordChar c = false := by
  unfold splitWord at hsplit
  rcases hspan : text.span isWordChar with ⟨whole, rest⟩
  obtain ⟨htext, hwhole, hrest⟩ := span_reads hspan
  have hplain : whole ++ rest = text ∧ (whole ≠ [] → IsWord whole) ∧
      ∀ c ∈ rest.head?, isWordChar c = false := ⟨htext, (.plain · hwhole), hrest⟩
  rw [hspan] at hsplit
  dsimp only at hsplit
  split at hsplit
  · next digit more =>
    split at hsplit
    · next hnumber =>
      simp only [Bool.and_eq_true, List.all_eq_true] at hnumber
      rcases hfraction : (digit :: more).span isWordChar with ⟨fraction, behind⟩
      obtain ⟨hmore, hinside, hbehind⟩ := span_reads hfraction
      rw [hfraction] at hsplit
      obtain ⟨rfl, rfl⟩ := Prod.mk.inj hsplit
      refine ⟨?_, fun _ => ?_, hbehind⟩
      · rw [← htext, List.append_assoc, List.cons_append, hmore]
      · cases fraction with
        | nil =>
          obtain rfl : behind = digit :: more := hmore
          have hword := hbehind digit rfl
          rw [isWordChar_of_isDigit hnumber.1.2] at hword
          cases hword
        | cons first others =>
          obtain ⟨rfl, -⟩ := List.cons.inj hmore
          exact .pointed hnumber.1.1 hnumber.1.2
            fun c hmem => hinside c (List.mem_cons_of_mem _ hmem)
    · obtain ⟨rfl, rfl⟩ := Prod.mk.inj hsplit
      exact hplain
  · obtain ⟨rfl, rfl⟩ := Prod.mk.inj hsplit
    exact hplain

/-- A step that passes a piece and leaves what it stands before, or that stops at a fault. -/
def StepReads (text : List Char) : Except Fault (Piece × List Char) → Prop
  | .ok (piece, after) => text = piece.text ++ after ∧ piece.Precedes after
  | .error fault => fault.Opens text

/-- An operator is read if its second character stands behind the first. -/
theorem operatorBehind_some {first second : Char} {rest after : List Char}
    (hoperator : operatorBehind first rest = some (second, after)) :
    rest = second :: after ∧ isOperator first second = true := by
  cases rest with
  | nil => cases hoperator
  | cons c behind =>
    by_cases hpair : isOperator first c = true
    · rw [operatorBehind, if_pos hpair] at hoperator
      obtain ⟨rfl, rfl⟩ := Prod.mk.inj (Option.some.inj hoperator)
      exact ⟨rfl, hpair⟩
    · rw [operatorBehind, if_neg hpair] at hoperator
      cases hoperator

/-- A mark is alone where neither a comment nor an operator begins. -/
theorem isAlone_of_not {mark : Char} {rest : List Char}
    (hline : ∀ behind, mark = '/' → rest = '/' :: behind → False)
    (hblock : ∀ behind, mark = '/' → rest = '*' :: behind → False)
    (hoperator : operatorBehind mark rest = none) : IsAlone mark rest := by
  intro c hhead
  obtain ⟨behind, rfl⟩ := List.head?_eq_some_iff.mp hhead
  constructor
  · by_contra hpair
    rw [operatorBehind, if_pos (Bool.not_eq_false _ ▸ hpair)] at hoperator
    cases hoperator
  · rintro ⟨hslash, rfl | rfl⟩
    · exact hline behind hslash rfl
    · exact hblock behind hslash rfl

/-- Where no quoted text, blank or comment begins, a step passes an operator, a word or a symbol. -/
theorem nextPlain_reads {afterWord : Bool} {c : Char} {rest : List Char} (hquote : c ≠ '"')
    (hblank : Unicode.isBlank c = false)
    (hline : ∀ behind, c = '/' → rest = '/' :: behind → False)
    (hblock : ∀ behind, c = '/' → rest = '*' :: behind → False) :
    StepReads (c :: rest) (nextPlain afterWord c rest) := by
  unfold nextPlain
  rcases hoperator : operatorBehind c rest with _ | ⟨second, after⟩
  · rcases hword : splitWord afterWord (c :: rest) with ⟨word, after⟩
    obtain ⟨htext, hwhole, hafter⟩ := splitWord_reads hword
    cases word with
    | cons first more => exact ⟨htext.symm, .word (hwhole (List.cons_ne_nil _ _)) hafter⟩
    | nil =>
      obtain rfl : after = c :: rest := htext
      by_cases hsymbol : isSymbol c = true
      · simp only [List.isEmpty_nil, Bool.not_true, Bool.false_eq_true, if_false, if_pos hsymbol]
        exact ⟨rfl, .symbol hsymbol (isAlone_of_not hline hblock hoperator)⟩
      · simp only [List.isEmpty_nil, Bool.not_true, Bool.false_eq_true, if_false, if_neg hsymbol]
        exact .invalidCharacter hblank (hafter c rfl) (Bool.eq_false_iff.mpr hsymbol) hquote
  · obtain ⟨rfl, hpair⟩ := operatorBehind_some hoperator
    exact ⟨rfl, .operator hpair⟩

/-- A quoted text goes on to the next quote. -/
theorem quoted_reads {rest body behind : List Char}
    (hspan : rest.span (· != '"') = (body, behind)) :
    '"' ∉ body ∧ (behind = [] ∧ rest = body ∨ ∃ after, behind = '"' :: after ∧
      rest = body ++ '"' :: after) := by
  obtain ⟨rfl, hinside, hbehind⟩ := span_reads hspan
  refine ⟨fun hmem => by simpa using hinside '"' hmem, ?_⟩
  cases behind with
  | nil => exact .inl ⟨rfl, List.append_nil body⟩
  | cons quote after =>
    obtain rfl : quote = '"' := by simpa using hbehind quote rfl
    exact .inr ⟨after, rfl, rfl⟩

/-- Each step of the scan passes a piece or stops at a fault. -/
theorem nextPiece_reads (afterWord : Bool) (c : Char) (rest : List Char) :
    StepReads (c :: rest) (nextPiece afterWord c rest) := by
  unfold nextPiece
  by_cases hquote : c = '"'
  · rw [if_pos hquote, hquote]
    rcases hspan : rest.span (· != '"') with ⟨body, behind⟩
    obtain ⟨hbody, ⟨rfl, rfl⟩ | ⟨after, rfl, rfl⟩⟩ := quoted_reads hspan
    · exact .unterminatedString hbody
    · exact ⟨by simp [Piece.text], .quoted hbody⟩
  · rw [if_neg hquote]
    by_cases hblank : Unicode.isBlank c = true
    · rw [if_pos hblank]
      exact ⟨rfl, .blank hblank⟩
    · rw [if_neg hblank]
      split
      · next line =>
        rcases hspan : line.span (· != '\n') with ⟨body, behind⟩
        obtain ⟨rfl, hinside, hbehind⟩ := span_reads hspan
        refine ⟨rfl, .lineComment (fun hmem => ?_) fun c hhead => ?_⟩
        · simpa using hinside '\n' hmem
        · simpa using hbehind c hhead
      · next comment =>
        rcases hsplit : splitComment comment with _ | ⟨body, behind⟩
        · exact .unterminatedComment (splitComment_none hsplit)
        · obtain ⟨rfl, hfirst⟩ := splitComment_some hsplit
          exact ⟨by simp [Piece.text], .blockComment hfirst⟩
      · next hline hblock =>
        exact nextPlain_reads hquote (Bool.eq_false_iff.mpr hblank) hline hblock

/-- A piece is never empty. -/
theorem Piece.Precedes.text_ne_nil {piece : Piece} {after : List Char}
    (hpiece : piece.Precedes after) : piece.text ≠ [] := by
  cases hpiece with
  | word hword _ => exact hword.ne_nil
  | _ => exact List.cons_ne_nil _ _

/-- With fuel for every character, a scan reads the whole text. -/
theorem scanFrom_reads {fuel : Nat} {text : List Char} (afterWord : Bool)
    (hfuel : text.length ≤ fuel) : (scanFrom fuel afterWord text).Reads text := by
  induction fuel generalizing text afterWord with
  | zero =>
    obtain rfl : text = [] := List.length_eq_zero_iff.mp (Nat.le_zero.mp hfuel)
    exact .ended
  | succ fuel ih =>
    cases text with
    | nil => exact .ended
    | cons c rest =>
      have hstep := nextPiece_reads afterWord c rest
      unfold scanFrom
      rcases hnext : nextPiece afterWord c rest with fault | ⟨piece, after⟩
      · rw [hnext] at hstep
        exact .halted hstep
      · rw [hnext] at hstep
        obtain ⟨htext, hpiece⟩ := hstep
        have hsome : 0 < piece.text.length := List.length_pos_iff.mpr hpiece.text_ne_nil
        rw [htext, List.length_append] at hfuel
        rw [htext]
        exact .piece hpiece (ih piece.isWord (by omega))

/-- A scan of a source reads all of it. -/
theorem scan_reads (source : List Char) : (scan source).Reads source :=
  scanFrom_reads false (Nat.le_refl _)

/-- The text behind the pieces of a scan. -/
def Scan.rest (scan : Scan) : List Char :=
  match scan.fault with
  | some (_, text) => text
  | none => []

/-- The pieces of a scan and the text behind them are what is scanned. -/
theorem Scan.Reads.text_eq {scan : Scan} {text : List Char} (hscan : scan.Reads text) :
    text = textOf scan.pieces ++ scan.rest := by
  induction hscan with
  | ended => rfl
  | halted _ => rfl
  | @piece piece scan after _ _ ih =>
    change piece.text ++ after = piece.text ++ textOf scan.pieces ++ scan.rest
    rw [List.append_assoc, ← ih]

end BraceLang.Source
