import BraceLang.Unicode.Run

/-!
# Blank characters

The white space of the language: space separators, and the controls that separate lines, fields
and paragraphs.
-/

namespace BraceLang.Unicode

/-- All blank characters. -/
def blankRuns : List (Nat × Nat) :=
  [(9, 13), (28, 32), (133, 133), (160, 160), (5760, 5760), (8192, 8202), (8232, 8233),
   (8239, 8239), (8287, 8287), (12288, 12288)]

/-- White space, a line break included. -/
def isBlank (c : Char) : Bool :=
  inRuns blankRuns c.toNat

/-- The white space of ASCII is blank. -/
theorem isBlank_of_isWhitespace {c : Char} (hclass : c.isWhitespace = true) :
    isBlank c = true := by
  simp only [Char.isWhitespace, Bool.or_eq_true, decide_eq_true_eq] at hclass
  rcases hclass with (((rfl | rfl) | rfl) | rfl) <;> decide

end BraceLang.Unicode
