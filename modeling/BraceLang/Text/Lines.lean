/-!
# Lines of a text

A text is split into lines at each line feed, so there is always one line more than there are line
feeds.
-/

namespace BraceLang.Text

/-- The lines of a text, without the line feeds between them. -/
def lines : List Char → List (List Char)
  | [] => [[]]
  | c :: rest =>
    if c = '\n' then [] :: lines rest
    else match lines rest with
      | [] => [[c]]
      | line :: more => (c :: line) :: more

/-- Every text has a line. -/
theorem lines_ne_nil (text : List Char) : lines text ≠ [] := by
  cases text with
  | nil => simp [lines]
  | cons c rest =>
    unfold lines
    split
    · simp
    · split <;> simp

/-- There is one line more than there are line feeds. -/
theorem lines_length (text : List Char) : (lines text).length = text.count '\n' + 1 := by
  induction text with
  | nil => rfl
  | cons c rest ih =>
    unfold lines
    by_cases hfeed : c = '\n'
    · simp [hfeed, ih]
    · rw [if_neg hfeed, List.count_cons_of_ne hfeed]
      have hsome := lines_ne_nil rest
      split
      · next hnone => exact absurd hnone hsome
      · next line more hlines => simpa [hlines] using ih

/-- A line without the carriage return at its end, if there is one. -/
def withoutReturn (line : List Char) : List Char :=
  if line.getLast? = some '\r' then line.dropLast else line

end BraceLang.Text
