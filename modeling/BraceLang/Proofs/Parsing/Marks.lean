import BraceLang.Lexeme

/-!
# Marks and words among lexemes

What the parsers ask a lexeme is whether it is one of some marks or a word of some spellings. These
questions exclude one another, and so do those for different marks.
-/

namespace BraceLang.Lexeme

variable {lexeme : Lexeme} {marks words : List String}

/-- A mark that is one of some marks is one of more marks. -/
theorem isMarkOf_subset {more : List String} (hmark : lexeme.isMarkOf marks = true)
    (hmarks : marks ⊆ more) : lexeme.isMarkOf more = true := by
  simp only [isMarkOf, Bool.and_eq_true, List.contains_iff_mem] at hmark ⊢
  exact ⟨hmark.1, hmarks hmark.2⟩

/-- A lexeme is not one of some marks if it is one of others. -/
theorem isMarkOf_disjoint {others : List String}
    (hmark : lexeme.isMarkOf marks = true) (hmarks : ∀ mark ∈ marks, mark ∉ others) :
    lexeme.isMarkOf others = false := by
  simp only [isMarkOf, Bool.and_eq_true, List.contains_iff_mem] at hmark
  refine Bool.eq_false_iff.mpr fun hother => ?_
  simp only [isMarkOf, Bool.and_eq_true, List.contains_iff_mem] at hother
  exact hmarks _ hmark.2 hother.2

/-- A mark of others is no semicolon. -/
theorem isMarkOf_semicolon (hmark : lexeme.isMarkOf marks = true) (hmarks : ";" ∉ marks) :
    lexeme.isMarkOf [";"] = false :=
  isMarkOf_disjoint hmark fun _ hmem hsemicolon =>
    hmarks (List.mem_singleton.mp hsemicolon ▸ hmem)

/-- Only a mark is one of some marks. -/
theorem isMarkOf_of_not_isMark (hmark : lexeme.isMark = false) :
    lexeme.isMarkOf marks = false := by
  rw [isMarkOf, hmark, Bool.false_and]

/-- A word of some spellings is a word. -/
theorem isWord_of_isWordOf (hword : lexeme.isWordOf words = true) : lexeme.isWord = true := by
  simp only [isWordOf, Bool.and_eq_true] at hword
  exact hword.1

/-- A word is no mark. -/
theorem isMarkOf_of_isWord (hword : lexeme.isWord = true) : lexeme.isMarkOf marks = false := by
  refine isMarkOf_of_not_isMark ?_
  simp only [isWord, Bool.or_eq_true, beq_iff_eq] at hword
  rcases hword with hkind | hkind <;> simp [isMark, hkind]

/-- A word of some spellings is no mark. -/
theorem isMarkOf_of_isWordOf (hword : lexeme.isWordOf words = true) :
    lexeme.isMarkOf marks = false :=
  isMarkOf_of_isWord (isWord_of_isWordOf hword)

/-- A mark of one spelling has that spelling. -/
theorem of_isMarkOf_singleton {text : String} (hmark : lexeme.isMarkOf [text] = true) :
    lexeme.isMark = true ∧ lexeme.text = text := by
  simpa [isMarkOf] using hmark

/-- A mark is of one of two kinds. -/
theorem kind_cases_of_isMarkOf (hmark : lexeme.isMarkOf marks = true) :
    lexeme.kind = .symbol ∨ lexeme.kind = .operator := by
  simp only [isMarkOf, isMark, Bool.and_eq_true, Bool.or_eq_true, beq_iff_eq] at hmark
  exact hmark.1

/-- A mark is not the end of the input. -/
theorem kind_of_isMarkOf (hmark : lexeme.isMarkOf marks = true) : lexeme.kind ≠ .endOfInput := by
  rcases kind_cases_of_isMarkOf hmark with hkind | hkind <;> simp [hkind]

end BraceLang.Lexeme
