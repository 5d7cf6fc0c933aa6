import BraceLang.Proofs.Parsing.Account
import BraceLang.Proofs.Spelling.Forms

/-!
# Spellings of lists

Lists are read item by item in a repetition that collects the items in reverse. What a repetition
has passed since it held some items is a spelling of the items that it found later.
-/

namespace BraceLang

open Language Spellings

namespace Spellings

/-- A mark spells itself. -/
theorem mark_mem {lexeme : Lexeme} {text : String} (hmark : lexeme.isMarkOf [text] = true) :
    [lexeme] ∈ mark text :=
  ⟨lexeme, hmark, rfl⟩

/-- A word spells itself. -/
theorem word_mem {lexeme : Lexeme} {text : String} (hword : lexeme.isWordOf [text] = true) :
    [lexeme] ∈ word text :=
  ⟨lexeme, hword, rfl⟩

/-- An identifier spells itself. -/
theorem identifier_mem (text : String) : [⟨.identifier, text⟩] ∈ identifier text := rfl

/-- A lexeme in front of a row. -/
theorem cons_mem {lexeme : Lexeme} {row : List Lexeme} {first second : Spellings}
    (hfirst : [lexeme] ∈ first) (hsecond : row ∈ second) : lexeme :: row ∈ first * second :=
  append_mem_mul hfirst hsecond

/-- What may be left out may be left out. -/
theorem nil_mem_optional (spellings : Spellings) : [] ∈ optional spellings :=
  Or.inl rfl

/-- What may be left out may be there. -/
theorem mem_optional {spellings : Spellings} {row : List Lexeme} (hrow : row ∈ spellings) :
    row ∈ optional spellings :=
  Or.inr hrow

/-- What is in no parentheses is in some number of them. -/
theorem mem_grouped {spellings : Spellings} {row : List Lexeme} (hrow : row ∈ spellings) :
    row ∈ grouped spellings :=
  ⟨0, by simpa using hrow⟩

/-- One more pair of parentheses. -/
theorem mem_grouped_of_mem {spellings : Spellings} {opening closing : Lexeme} {row : List Lexeme}
    (hopening : opening.isMarkOf ["("] = true) (hrow : row ∈ grouped spellings)
    (hclosing : closing.isMarkOf [")"] = true) :
    opening :: (row ++ [closing]) ∈ grouped spellings := by
  obtain ⟨pairs, hpairs⟩ := hrow
  refine ⟨pairs + 1, ?_⟩
  rw [pow_succ', pow_succ, mul_assoc (mark "("), mul_assoc (mark "("), ← mul_assoc _ _ (mark ")")]
  exact cons_mem (mark_mem hopening) (append_mem_mul hpairs (mark_mem hclosing))

/-- Braces around a row. -/
theorem mem_braced {spellings : Spellings} {opening closing : Lexeme} {row : List Lexeme}
    (hopening : opening.isMarkOf ["\x7b"] = true) (hrow : row ∈ spellings)
    (hclosing : closing.isMarkOf ["\x7d"] = true) :
    opening :: (row ++ [closing]) ∈ braced spellings := by
  rw [braced, mul_assoc]
  exact cons_mem (mark_mem hopening) (append_mem_mul hrow (mark_mem hclosing))

/-- Parentheses around a row. -/
theorem mem_parenthesized {spellings : Spellings} {opening closing : Lexeme} {row : List Lexeme}
    (hopening : opening.isMarkOf ["("] = true) (hrow : row ∈ spellings)
    (hclosing : closing.isMarkOf [")"] = true) :
    opening :: (row ++ [closing]) ∈ parenthesized spellings := by
  rw [parenthesized, mul_assoc]
  exact cons_mem (mark_mem hopening) (append_mem_mul hrow (mark_mem hclosing))

/-- The spellings of the items of a list behind its first, each behind a separator. -/
structure Separates {α : Type} (separator : Spellings) (item : α → Spellings)
    (behind : List α → Spellings) : Prop where
  nil : behind [] = 1
  cons (first : α) (rest : List α) : behind (first :: rest) = separator * item first * behind rest

/-- The spellings of a list that may have a separator behind its last item. -/
def row {α : Type} (separator : Spellings) (item : α → Spellings) (behind : List α → Spellings) :
    List α → Spellings
  | [] => 1
  | first :: rest => item first * behind rest * optional separator

/-- An item and a separator in front of a list are a list. -/
theorem Separates.append_mem_row {α : Type} {separator : Spellings} {item : α → Spellings}
    {behind : List α → Spellings} (hbehind : Separates separator item behind) {first : α}
    {rest : List α} {row₁ row₂ row₃ : List Lexeme} (hfirst : row₁ ∈ item first)
    (hseparator : row₂ ∈ separator) (hrest : row₃ ∈ row separator item behind rest) :
    row₁ ++ (row₂ ++ row₃) ∈ row separator item behind (first :: rest) := by
  cases rest with
  | nil =>
    obtain rfl : row₃ = [] := hrest
    rw [row, hbehind.nil, mul_one, List.append_nil]
    exact append_mem_mul hfirst (mem_optional hseparator)
  | cons second rest =>
    rw [row, hbehind.cons, mul_assoc, mul_assoc, mul_assoc, ← mul_assoc (item second)]
    exact append_mem_mul hfirst (append_mem_mul hseparator hrest)

end Spellings

/-- A repetition has found items since it held some, and what it passed spells them. -/
def Outcome.collected {α : Type} (spellings : List α → Spellings) (held : List α) :
    Outcome (List α) :=
  fun last passed _ reports =>
    reports = [] → ∃ found, last = found.reverse ++ held ∧ passed ∈ spellings found

/-- What was passed for a value spells it. -/
abbrev Outcome.spells {α : Type} (spellings : α → Spellings) : Outcome α :=
  fun value passed _ reports => reports = [] → passed ∈ spellings value

namespace Parser

variable {α : Type} {levels : Nat} {item : Parser α} {spellings : α → Spellings}
  {behind : List α → Spellings}

/-- Nothing was found where nothing was passed. -/
theorem collected_refl {list : List α → Spellings} (hnil : list [] = 1) (held : List α)
    (rest : List Lexeme) : Outcome.collected list held held [] rest [] :=
  fun _ => ⟨[], rfl, by rw [hnil]; exact nil_mem_one⟩

/-- What is found behind an item comes behind it. -/
theorem collected_cons {list : List α → Spellings} {held last : List α} {first : α}
    {passed more rest : List Lexeme} {reports later : List Report}
    (hmore : Outcome.collected list (first :: held) last more rest later)
    (hlist : reports = [] → ∀ found, more ∈ list found → passed ++ more ∈ list (first :: found)) :
    Outcome.collected list held last (passed ++ more) rest (reports ++ later) := by
  intro hreports
  obtain ⟨hfirst, hlater⟩ := List.append_eq_nil_iff.mp hreports
  obtain ⟨found, rfl, hfound⟩ := hmore hlater
  exact ⟨first :: found, by simp, hlist hfirst found hfound⟩

/-- A round between separators accounts for the item that it reads. -/
private theorem nextItem_accounts (hbehind : Separates (mark ",") spellings behind)
    (hitem : ∀ unread, (item unread).Accounts levels unread (.spells spellings))
    (held : List α) (unread : List Lexeme) :
    (nextItem item held unread).Accounts levels unread
      (Outcome.ofRound (Outcome.collected behind) held) := by
  unfold nextItem
  refine .accept (fun comma rest _ hcomma => ?_) (.pure (collected_refl hbehind.nil held unread))
  refine .cons (Lexeme.isReadable_of_isMarkOf hcomma) (.bind (hitem rest) ?_)
  intro next passed rest reports hnext
  refine .pure ⟨by simp, fun last more left later _ hmore => ?_⟩
  simp only [List.append_nil]
  refine collected_cons hmore fun hreports found hfound => ?_
  rw [hbehind.cons, mul_assoc]
  exact cons_mem (mark_mem hcomma) (append_mem_mul (hnext hreports) hfound)

/-- Items with commas between them. There is at least one. -/
theorem separated_accounts (hbehind : Separates (mark ",") spellings behind)
    (hitem : ∀ unread, (item unread).Accounts levels unread (.spells spellings))
    (unread : List Lexeme) :
    (separated item unread).Accounts levels unread fun items passed _ reports =>
      reports = [] → ∃ first rest, items = first :: rest ∧
        passed ∈ spellings first * behind rest := by
  unfold separated
  refine .bind (hitem unread) fun first passed rest reports hfirst => ?_
  refine .bind (.repeating (nextItem_accounts hbehind hitem) [first] rest) ?_
  intro items more left later hitems
  refine .pure fun hreports => ?_
  simp only [List.append_eq_nil_iff, and_true] at hreports
  obtain ⟨found, rfl, hfound⟩ := hitems hreports.2
  refine ⟨first, found, by simp, ?_⟩
  simpa using append_mem_mul (hfirst hreports.1) hfound

/-- So does a round up to a closing mark, where the last comma may end the list. -/
private theorem nextListed_accounts {closing : String}
    (hbehind : Separates (mark ",") spellings behind)
    (hitem : ∀ unread, (item unread).Accounts levels unread (.spells spellings))
    (held : List α) (unread : List Lexeme) :
    (nextListed item closing held unread).Accounts levels unread
      (Outcome.ofRound
        (Outcome.collected fun found => behind found * optional (mark ",")) held) := by
  have hnil {row : List Lexeme} (hrow : row ∈ optional (mark ",")) :
      row ∈ behind [] * optional (mark ",") := by
    rwa [hbehind.nil, one_mul]
  unfold nextListed
  refine .accept (fun comma rest _ hcomma => ?_)
    (.pure fun _ => ⟨[], rfl, hnil (nil_mem_optional _)⟩)
  · refine .cons (Lexeme.isReadable_of_isMarkOf hcomma) ?_
    rw [if_pos rfl, nextIsMark_bind]
    split
    · exact .pure fun _ => ⟨[], rfl, hnil (mem_optional (mark_mem hcomma))⟩
    · refine .bind (hitem rest) fun next passed rest reports hnext => ?_
      refine .pure ⟨by simp, fun last more left later _ hmore => ?_⟩
      simp only [List.append_nil]
      refine collected_cons hmore fun hreports found hfound => ?_
      rw [hbehind.cons, mul_assoc, mul_assoc]
      exact cons_mem (mark_mem hcomma) (append_mem_mul (hnext hreports) hfound)

/-- Items with commas between them up to a closing mark. -/
theorem listed_accounts {closing : String} (hbehind : Separates (mark ",") spellings behind)
    (hitem : ∀ unread, (item unread).Accounts levels unread (.spells spellings))
    (unread : List Lexeme) :
    (listed item closing unread).Accounts levels unread
      (.spells (row (mark ",") spellings behind)) := by
  unfold listed
  rw [nextIsMark_bind]
  split
  · exact .pure fun _ => rfl
  · refine .bind (hitem unread) fun first passed rest reports hfirst => ?_
    refine .bind (.repeating (nextListed_accounts hbehind hitem) [first] rest) ?_
    intro items more left later hitems
    refine .pure fun hreports => ?_
    simp only [List.append_eq_nil_iff, and_true] at hreports
    obtain ⟨found, rfl, hfound⟩ := hitems hreports.2
    rw [List.reverse_append, List.reverse_reverse, List.append_nil]
    change _ ∈ spellings first * behind found * optional (mark ",")
    rw [mul_assoc]
    exact append_mem_mul (hfirst hreports.1) hfound

/-- So does a round whose separator may be one of several. -/
private theorem nextUpTo_accounts {item : List α → Parser α} {separator : Spellings}
    {separators : List String} {closing : String} (hbehind : Separates separator spellings behind)
    (hseparators : ∀ {lexeme : Lexeme}, lexeme.isMarkOf separators = true → [lexeme] ∈ separator)
    (hitem : ∀ held unread, (item held unread).Accounts levels unread (.spells spellings))
    (held : List α) (unread : List Lexeme) :
    (nextUpTo item separators closing held unread).Accounts levels unread
      (Outcome.ofRound (Outcome.collected (row separator spellings behind)) held) := by
  have hstays : Outcome.collected (row separator spellings behind) held held [] unread [] :=
    collected_refl rfl held unread
  unfold nextUpTo
  rw [nextIsMark_bind]
  split
  · exact .pure hstays
  · rw [atEnd_bind]
    split
    · exact .pure hstays
    · refine .bind (hitem held unread) fun next passed rest reports hnext => ?_
      refine .accept (fun lexeme after _ hlexeme => ?_) (.pure fun hreports => ?_)
      · refine .cons (Lexeme.isReadable_of_isMarkOf hlexeme) (.pure ⟨by simp, ?_⟩)
        intro last more left later _ hmore
        simp only [List.append_nil]
        refine collected_cons hmore fun hreports found hfound => ?_
        rw [List.append_assoc]
        exact hbehind.append_mem_row (hnext hreports) (hseparators hlexeme) hfound
      · refine ⟨[next], rfl, ?_⟩
        rw [row, hbehind.nil, mul_one]
        exact append_mem_mul (hnext (by simpa using hreports)) (nil_mem_optional _)

/-- Items with separators between them up to a closing mark or to the end. -/
theorem upTo_accounts {item : List α → Parser α} {separator : Spellings}
    {separators : List String} {closing : String} (hbehind : Separates separator spellings behind)
    (hseparators : ∀ {lexeme : Lexeme}, lexeme.isMarkOf separators = true → [lexeme] ∈ separator)
    (hitem : ∀ held unread, (item held unread).Accounts levels unread (.spells spellings))
    (unread : List Lexeme) :
    (upTo item separators closing unread).Accounts levels unread
      (.spells (row separator spellings behind)) := by
  unfold upTo
  refine .bind (.repeating (nextUpTo_accounts hbehind hseparators hitem) [] unread) ?_
  intro items passed rest reports hitems
  refine .pure fun hreports => ?_
  obtain ⟨found, rfl, hfound⟩ := hitems (by simpa using hreports)
  simpa using hfound

end Parser

end BraceLang
