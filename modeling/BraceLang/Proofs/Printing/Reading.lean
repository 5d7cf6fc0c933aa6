import BraceLang.Proofs.Parsing.Rounds
import BraceLang.Proofs.Printing.Print

/-!
# Reading what was printed

A parser reads a value from a row of lexemes if it passes the row, reports nothing and leaves what
follows. What may follow is part of the statement, since a parser looks at the lexeme behind a value
before it returns it. Repetitions are read round by round: an equation for one round and one for the
rounds behind it give the equation for all of them.
-/

namespace BraceLang

section Marks

variable (text : String) (texts : List String)

/-- A printed mark is a mark. -/
@[simp] theorem Lexeme.mark_isMark : (mark text).isMark = true := by
  unfold mark isMark
  split <;> rfl

/-- It is one of those asked for when its text is. -/
@[simp] theorem Lexeme.mark_isMarkOf : (mark text).isMarkOf texts = texts.contains text := by
  simp [isMarkOf, show (mark text).text = text from rfl]

/-- It is no word. -/
@[simp] theorem Lexeme.mark_isWord : (mark text).isWord = false := by
  unfold mark isWord
  split <;> rfl

/-- In particular none of those asked for. -/
@[simp] theorem Lexeme.mark_isWordOf : (mark text).isWordOf texts = false := by
  simp [isWordOf]

/-- Nor is it an identifier. -/
@[simp] theorem Lexeme.mark_kind : (mark text).kind ≠ .identifier := by
  unfold mark
  split <;> simp

/-- It carries the text it was made from. -/
@[simp] theorem Lexeme.mark_text : (mark text).text = text := rfl

/-- A printed keyword is no mark. -/
@[simp] theorem Lexeme.keyword_isMarkOf : (keyword text).isMarkOf texts = false := rfl

/-- It is a word. -/
@[simp] theorem Lexeme.keyword_isWord : (keyword text).isWord = true := rfl

/-- It carries the text it was made from. -/
@[simp] theorem Lexeme.keyword_text : (keyword text).text = text := rfl

/-- It is one of the words asked for when its text is. -/
@[simp] theorem Lexeme.keyword_isWordOf : (keyword text).isWordOf texts = texts.contains text := by
  simp [isWordOf]

/-- A printed identifier is no mark. -/
@[simp] theorem Lexeme.identifier_isMarkOf : (identifier text).isMarkOf texts = false := rfl

/-- It is a word. -/
@[simp] theorem Lexeme.identifier_isWord : (identifier text).isWord = true := rfl

/-- It carries the text it was made from. -/
@[simp] theorem Lexeme.identifier_text : (identifier text).text = text := rfl

/-- It has the kind of an identifier. -/
@[simp] theorem Lexeme.identifier_kind : (identifier text).kind = .identifier := rfl

/-- It is one of the words asked for when its text is. -/
@[simp] theorem Lexeme.identifier_isWordOf :
    (identifier text).isWordOf texts = texts.contains text := by
  simp [isWordOf]

end Marks

/-- What follows a row, as far as a mark is concerned: none of some marks is next. -/
def NotMark (marks : List String) (rest : List Lexeme) : Prop :=
  rest.head?.any (·.isMarkOf marks) = false

/-- Where none of some marks is next, none of fewer marks is. -/
theorem NotMark.mono {marks fewer : List String} {rest : List Lexeme} (hnot : NotMark marks rest)
    (hfewer : fewer ⊆ marks) : NotMark fewer rest := by
  cases rest with
  | nil => rfl
  | cons lexeme behind =>
    simp only [NotMark, List.head?_cons, Option.any_some, Lexeme.isMarkOf, Bool.and_eq_false_iff,
      List.contains_eq_mem, decide_eq_false_iff_not] at hnot ⊢
    exact hnot.imp_right fun hmem hfew => hmem (hfewer hfew)

/-- The marks that may stand behind an expression. -/
def endings : List String := [";", ",", ")", "]", "\x7d"]

/-- What follows a row begins with a mark that may stand behind an expression. -/
def Ends (rest : List Lexeme) : Prop :=
  ∃ text ∈ endings, ∃ behind, rest = Lexeme.mark text :: behind

/-- No mark that may stand behind an expression continues one. -/
theorem Ends.notMark {marks : List String} {rest : List Lexeme} (hends : Ends rest)
    (hmarks : ∀ text ∈ endings, text ∉ marks) : NotMark marks rest := by
  obtain ⟨text, htext, behind, rfl⟩ := hends
  simpa [NotMark] using hmarks text htext

/-- A row begins with none of some marks. -/
def Begins (marks : List String) (row : List Lexeme) : Prop :=
  ∃ lexeme behind, row = lexeme :: behind ∧ lexeme.isMarkOf marks = false

/-- What stands behind a row does not matter to what it begins with. -/
theorem Begins.notMark {marks : List String} {row : List Lexeme} (hbegins : Begins marks row)
    (rest : List Lexeme) : NotMark marks (row ++ rest) := by
  obtain ⟨lexeme, behind, rfl, hmark⟩ := hbegins
  simpa [NotMark] using hmark

/-- A parser reads a value from a row of lexemes, provided that what follows the row meets a
condition. -/
def Parser.Reads {α : Type} (parser : Parser α) (row : List Lexeme) (value : α)
    (follows : List Lexeme → Prop) : Prop :=
  ∀ rest, follows rest → parser (row ++ rest) = .done value rest []

namespace Parser

variable {α β σ : Type} {unread rest : List Lexeme}

/-- What follows a parser runs on what it leaves. -/
theorem Reads.run {parser : Parser α} {row : List Lexeme} {value : α}
    {follows : List Lexeme → Prop} (hreads : parser.Reads row value follows) (next : α → Parser β)
    (hrest : follows rest) : (parser >>= next) (row ++ rest) = next value rest :=
  bind_of_silent next (hreads rest hrest)

/-- A mark that has to be there is read where it was printed. -/
@[simp] theorem expectMark_bind_mark (mark : String) (expected : Expected)
    (next : Unit → Parser β) :
    (expectMark mark expected >>= next) (.mark mark :: rest) = next () rest :=
  bind_of_silent next (by simp [expectMark_apply])

/-- So is a word. -/
@[simp] theorem expectWord_bind_keyword (word : String) (expected : Expected)
    (next : Unit → Parser β) :
    (expectWord word expected >>= next) (.keyword word :: rest) = next () rest :=
  bind_of_silent next (by simp [expectWord_apply])

/-- So is an identifier, whose text is handed on. -/
@[simp] theorem identifier_bind_identifier (text : String) (expected : Expected)
    (next : String → Parser β) :
    (identifier expected >>= next) (.identifier text :: rest) = next text rest :=
  bind_of_silent next (by simp [identifier_apply])

/-- An identifier may also be read as a name. -/
@[simp] theorem word_bind_identifier (text : String) (expected : Expected)
    (next : String → Parser β) :
    (word expected >>= next) (.identifier text :: rest) = next text rest :=
  bind_of_silent next (by simp [word_apply])

section Rounds

variable {round : σ → Parser (Turn σ)}

/-- A round that is the last. -/
theorem repeating_finish {state last : σ}
    (hround : round state unread = .done (.finish last) rest []) :
    repeating round state unread = .done last rest [] :=
  repeatFor_of_finish unread hround

/-- A round that passes a lexeme and goes on. -/
theorem repeating_again {state next last : σ} {left : List Lexeme}
    (hround : round state unread = .done (.again next) left [])
      (hleft : left.length < unread.length)
    (hlater : repeating round next left = .done last rest []) :
    repeating round state unread = .done last rest [] := by
  obtain ⟨first, behind, rfl⟩ := List.exists_cons_of_length_pos (show 0 < unread.length by omega)
  have hrounds : left.length ≤ behind.length := Nat.le_of_lt_succ hleft
  change repeatFor round (first :: behind) state (first :: behind) = _
  rw [repeatFor_of_again first behind hround, repeatFor_of_length_le hrounds hlater]
  rfl

end Rounds

end Parser

namespace Printing

open Lexeme

variable {α : Type} (print : α → List Lexeme)

/-- A list behind its first item: the others, each behind a comma. -/
def behindFirst (items : List α) : List Lexeme := items.flatMap fun item => mark "," :: print item

/-- A list is its first item and what is behind it. -/
theorem separated_cons (first : α) (rest : List α) :
    separated ((first :: rest).map print) = print first ++ behindFirst print rest := by
  induction rest generalizing first with
  | nil => simp [separated, behindFirst]
  | cons second rest ih =>
    have hrest := ih second
    simp only [separated, behindFirst, List.map_cons, List.flatMap_cons,
      List.intercalate_cons_cons] at hrest ⊢
    rw [hrest]
    simp

end Printing

namespace Parser

open Lexeme Printing

variable {α : Type} {print : α → List Lexeme} {item : Parser α} {follows : List Lexeme → Prop}
  {items : List α} {closing : String} {tail : List Lexeme}

/-- What is behind an item of a list is a comma or the closing mark. -/
theorem follows_behindFirst (print : α → List Lexeme) (hcomma : ∀ rest, follows (mark "," :: rest))
    (hclosing : follows (mark closing :: tail)) (items : List α) :
    follows (behindFirst print items ++ mark closing :: tail) := by
  cases items with
  | nil => exact hclosing
  | cons first rest => exact hcomma _

/-- A repetition whose rounds read a comma and an item, up to a closing mark. -/
private theorem repeating_behindFirst {round : List α → Parser (Turn (List α))}
    (hround : ∀ held, ∀ value ∈ items, ∀ rest, follows rest →
      round held (mark "," :: (print value ++ rest)) = .done (.again (value :: held)) rest [])
    (hlast : ∀ held, round held (mark closing :: tail) =
      .done (.finish held) (mark closing :: tail) [])
    (hcomma : ∀ rest, follows (mark "," :: rest)) (hclosing : follows (mark closing :: tail))
    (held : List α) :
    repeating round held (behindFirst print items ++ mark closing :: tail) =
      .done (items.reverse ++ held) (mark closing :: tail) [] := by
  induction items generalizing held with
  | nil => exact repeating_finish (hlast held)
  | cons first rest ih =>
    have hagain := hround held first List.mem_cons_self _
      (follows_behindFirst print hcomma hclosing rest)
    have hlater := ih (fun held value hvalue =>
      hround held value (List.mem_cons_of_mem first hvalue))
      (first :: held)
    rw [behindFirst, List.flatMap_cons, ← behindFirst]
    simp only [List.cons_append, List.append_assoc]
    refine repeating_again hagain ?_ ?_
    · simp only [List.length_cons, List.length_append]
      omega
    · simpa using hlater

/-- Items with commas between them are read from what they are printed as. -/
theorem separated_reads {first : α} (hfirst : item.Reads (print first) first follows)
    (hitems : ∀ value ∈ items, item.Reads (print value) value follows)
    (hcomma : ∀ rest, follows (mark "," :: rest)) (hclosing : follows (mark closing :: tail))
    (hmark : closing ≠ ",") :
    separated item (Printing.separated ((first :: items).map print) ++ mark closing :: tail) =
      .done (first :: items) (mark closing :: tail) [] := by
  have hround (held : List α) (value : α) (hvalue : value ∈ items) (rest : List Lexeme)
      (hrest : follows rest) :
      nextItem item held (mark "," :: (print value ++ rest)) =
        .done (.again (value :: held)) rest [] := by
    unfold nextItem
    rw [accept_bind, if_pos (by simp)]
    exact (hitems value hvalue).run _ hrest
  have hlast (held : List α) : nextItem item held (mark closing :: tail) =
      .done (.finish held) (mark closing :: tail) [] := by
    unfold nextItem
    rw [accept_bind, if_neg (by simp [hmark])]
    rfl
  unfold separated
  rw [separated_cons, List.append_assoc,
    hfirst.run _ (follows_behindFirst print hcomma hclosing items),
    bind_of_silent _ (repeating_behindFirst hround hlast hcomma hclosing [first])]
  simp [pure_apply]

/-- Items with commas between them are read up to a closing mark that none of them begins with. -/
theorem listed_reads (hitems : ∀ value ∈ items, item.Reads (print value) value follows)
    (hbegins : ∀ value ∈ items, Begins [closing] (print value))
    (hcomma : ∀ rest, follows (mark "," :: rest)) (hclosing : follows (mark closing :: tail))
    (hmark : closing ≠ ",") :
    listed item closing (Printing.separated (items.map print) ++ mark closing :: tail) =
      .done items (mark closing :: tail) [] := by
  cases items with
  | nil =>
    unfold listed
    rw [nextIsMark_bind, if_pos (by simp [Printing.separated])]
    simp [Printing.separated, pure_apply]
  | cons first items =>
    have hround (held : List α) (value : α) (hvalue : value ∈ items) (rest : List Lexeme)
        (hrest : follows rest) :
        nextListed item closing held (mark "," :: (print value ++ rest)) =
          .done (.again (value :: held)) rest [] := by
      have hmem := List.mem_cons_of_mem first hvalue
      have hnot : NotMark [closing] (print value ++ rest) := (hbegins value hmem).notMark rest
      unfold nextListed
      rw [accept_bind, if_pos (by simp), List.tail_cons]
      simp only [nextIsMark_bind, if_true]
      rw [hnot]
      exact (hitems value hmem).run _ hrest
    have hlast (held : List α) : nextListed item closing held (mark closing :: tail) =
        .done (.finish held) (mark closing :: tail) [] := by
      unfold nextListed
      rw [accept_bind, if_neg (by simp [hmark])]
      rfl
    have hnot : NotMark [closing] (print first ++
        (behindFirst print items ++ mark closing :: tail)) :=
      (hbegins first List.mem_cons_self).notMark _
    unfold listed
    rw [separated_cons, List.append_assoc, nextIsMark_bind, hnot, if_neg (by simp),
      (hitems first List.mem_cons_self).run _ (follows_behindFirst print hcomma hclosing items),
      bind_of_silent _ (repeating_behindFirst hround hlast hcomma hclosing [first])]
    simp [pure_apply]

section UpTo

variable {item : List α → Parser α} {separators : List String}

/-- A round that reads an item and the comma behind it, or the item alone if it is the last. -/
private theorem nextUpTo_reads {value : α} {held : List α} {rest : List Lexeme}
    (hitem : (item held).Reads (print value) value follows)
    (hbegins : Begins [closing] (print value)) (hrest : follows rest) :
    nextUpTo item separators closing held (print value ++ rest) =
      if rest.head?.any (·.isMarkOf separators) then .done (.again (value :: held)) rest.tail []
      else .done (.finish (value :: held)) rest [] := by
  have hnot : NotMark [closing] (print value ++ rest) := hbegins.notMark rest
  have hnonempty : (print value ++ rest).head?.isNone = false := by
    obtain ⟨lexeme, behind, hprint, -⟩ := hbegins
    rw [hprint]
    rfl
  unfold nextUpTo
  rw [nextIsMark_bind, hnot, if_neg (by simp), atEnd_bind, hnonempty, if_neg (by simp),
    hitem.run _ hrest, accept_bind]
  split <;> rfl

/-- The rounds of a list read back what was printed item by item, whatever is held already. -/
private theorem repeating_upTo
    (hseparator : "," ∈ separators) (hmark : closing ∉ separators)
    (hcomma : ∀ rest, follows (mark "," :: rest)) (hclosing : follows (mark closing :: tail))
    (held : List α)
    (hitems : ∀ before value after, items = before ++ value :: after →
      (item (before.reverse ++ held)).Reads (print value) value follows)
    (hbegins : ∀ value ∈ items, Begins [closing] (print value)) :
    repeating (nextUpTo item separators closing) held
        (Printing.separated (items.map print) ++ mark closing :: tail) =
      .done (items.reverse ++ held) (mark closing :: tail) [] := by
  induction items generalizing held with
  | nil =>
    refine repeating_finish ?_
    unfold nextUpTo
    rw [nextIsMark_bind, if_pos (by simp [Printing.separated])]
    rfl
  | cons first rest ih =>
    have hfirst : (item held).Reads (print first) first follows := hitems [] first rest rfl
    have hround := @nextUpTo_reads _ print follows closing item separators first held
    have hbegin := hbegins first List.mem_cons_self
    cases rest with
    | nil =>
      refine repeating_finish ?_
      rw [separated_cons, behindFirst, List.flatMap_nil, List.append_nil,
        hround hfirst hbegin hclosing,
        if_neg (by simpa using hmark)]
      rfl
    | cons second rest =>
      have hrows : Printing.separated ((first :: second :: rest).map print) =
          print first ++ mark "," :: Printing.separated ((second :: rest).map print) := by
        rw [separated_cons, separated_cons, behindFirst, List.flatMap_cons, ← behindFirst]
        rfl
      have hlater := ih (first :: held)
        (fun before value after hsplit => by
          have hwhole := hitems (first :: before) value after (by rw [hsplit]; rfl)
          simpa using hwhole)
        (fun value hvalue => hbegins value (List.mem_cons_of_mem first hvalue))
      rw [hrows, List.append_assoc, List.cons_append]
      refine repeating_again ((hround hfirst hbegin (hcomma _)).trans
        (if_pos (by simpa using hseparator)))
        ?_ (by simpa using hlater)
      simp only [List.tail_cons, List.length_append, List.length_cons]
      omega

/-- Items with commas between them are read up to a closing mark, though an item may be read only
where those before it do not forbid it. -/
theorem upTo_reads
    (hseparator : "," ∈ separators) (hmark : closing ∉ separators)
    (hcomma : ∀ rest, follows (mark "," :: rest)) (hclosing : follows (mark closing :: tail))
    (hitems : ∀ before value after, items = before ++ value :: after →
      (item before.reverse).Reads (print value) value follows)
    (hbegins : ∀ value ∈ items, Begins [closing] (print value)) :
    upTo item separators closing (Printing.separated (items.map print) ++ mark closing :: tail) =
      .done items (mark closing :: tail) [] := by
  have hrounds := repeating_upTo hseparator hmark hcomma hclosing []
    (fun before value after hsplit => by simpa using hitems before value after hsplit) hbegins
  unfold upTo
  rw [bind_of_silent _ hrounds]
  simp [pure_apply]

end UpTo

end Parser

end BraceLang
