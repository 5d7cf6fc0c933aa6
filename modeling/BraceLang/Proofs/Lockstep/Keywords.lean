import BraceLang.Proofs.Lockstep.Statements
import BraceLang.Proofs.Parsing.Completion
import BraceLang.Proofs.Parsing.Stages

/-!
# Fewer keywords

Where a program is parsed without a report, no keyword stands where an identifier would be treated
otherwise: the words of statements may be either, and so may the names of types and the two truth
values. A source that is parsed without a diagnostic is therefore parsed in the same way with fewer
keywords, unless a keyword that is missing is spelled like a number.
-/

namespace BraceLang

open BraceLang.Parser

/-- Inputs with copies of the same length in which keywords may be identifiers. -/
def Pairing.relaxed : Pairing where
  Paired := List.Forall₂ Lexeme.Relaxed
  Over _ := False
  longer := 0
  head := by
    rintro _ _ (_ | ⟨hfirst, -⟩)
    · exact .none
    · exact .some hfirst
  tail := by
    rintro _ _ (_ | ⟨-, hrest⟩)
    · exact .inl .nil
    · exact .inl hrest
  length_eq hpaired := hpaired.length_eq.symm
  length_over := False.elim

/-- A program that is parsed without a report is parsed in the same way with identifiers in the
places of keywords. -/
theorem program_relaxed {options : Options} {lexemes copy rest : List Lexeme}
    {statements : List Statement} (hcopy : List.Forall₂ Lexeme.Relaxed lexemes copy)
    (hdone : Parser.program options lexemes = .done statements rest []) :
    Parser.program options copy = .done statements [] [] := by
  obtain ⟨fewer, left, -, hleft, hprogram⟩ :=
    Parser.program_copy (show Pairing.relaxed.Paired lexemes copy from hcopy) hdone
  rcases hleft with hnil | ⟨-, hfalse⟩
  · cases hnil
    have hend : repeatFor (nextStatement (statement options (outermost options)) []) fewer
        statements.reverse [] = .done statements.reverse [] [] := repeatFor_of_finish fewer rfl
    rw [hprogram, hend, Reply.map, List.reverse_reverse]
  · exact hfalse.elim

/-- Inputs with the same tokens, but that keywords may be identifiers, have such lexemes. -/
theorem Input.lexemes_relaxed {tokens copy : List Token}
    (hcopy : List.Forall₂ (fun token other => token.toLexeme.Relaxed other.toLexeme) tokens copy) :
    List.Forall₂ Lexeme.Relaxed (ofTokens tokens).lexemes (ofTokens copy).lexemes := by
  rw [lexemes_ofTokens, lexemes_ofTokens]
  induction hcopy with
  | nil => exact .nil
  | @cons token other tokens copy hfirst _ ih =>
    have hinside : isInside other = isInside token := hfirst.ends_eq
    simp only [List.takeWhile_cons, hinside]
    split
    · exact .cons hfirst ih
    · exact .nil

namespace Source

section Tokens

variable {keywords fewer : List String} (hfewer : ∀ word ∈ fewer, word ∈ keywords)
  (hnumbers : ∀ word ∈ keywords, isNumber word.toList = false)
include hfewer hnumbers

/-- A word that is no longer a keyword is an identifier. -/
theorem word_relaxed (text : List Char) :
    Lexeme.Relaxed ⟨wordKind keywords text, String.ofList text⟩
      ⟨wordKind fewer text, String.ofList text⟩ := by
  unfold wordKind
  by_cases hless : String.ofList text ∈ fewer
  · simp [hless, hfewer _ hless, Lexeme.Relaxed.same]
  · by_cases hmore : String.ofList text ∈ keywords
    · have hword : isNumber text = false := by simpa using hnumbers _ hmore
      simp [hless, hmore, hword, Lexeme.Relaxed.keyword]
    · simp [hless, hmore, Lexeme.Relaxed.same]

/-- The lexeme of a piece is the same, or a keyword is an identifier. -/
theorem lexeme?_relaxed (piece : Piece) :
    Option.Rel Lexeme.Relaxed (piece.lexeme? keywords) (piece.lexeme? fewer) := by
  cases piece with
  | word text => exact .some (word_relaxed hfewer hnumbers text)
  | blank | lineComment | blockComment => exact .none
  | operator | symbol => exact .some (.same _)
  | quoted body =>
    simp only [Piece.lexeme?]
    split
    · exact .none
    · exact .some (.same _)

/-- The tokens of a source are the same, but that keywords may be identifiers. -/
theorem tokensAt_relaxed (place : Location) (pieces : List Piece) :
    List.Forall₂ (fun token other => token.toLexeme.Relaxed other.toLexeme)
      (tokensAt keywords place pieces) (tokensAt fewer place pieces) := by
  induction pieces generalizing place with
  | nil => exact .nil
  | cons piece pieces ih =>
    have hrest := ih (place.advance piece.text)
    have hlexeme := lexeme?_relaxed hfewer hnumbers piece
    unfold tokensAt
    generalize piece.lexeme? keywords = first at hlexeme ⊢
    generalize piece.lexeme? fewer = other at hlexeme ⊢
    cases hlexeme with
    | some hfirst => exact .cons hfirst hrest
    | none => exact hrest

/-- So are they with the token that marks the end. -/
theorem tokenize_relaxed (source file : String) :
    List.Forall₂ (fun token other => token.toLexeme.Relaxed other.toLexeme)
      (tokenize source keywords file).1 (tokenize source fewer file).1 :=
  List.rel_append (tokensAt_relaxed hfewer hnumbers _ _) (.cons (.same _) .nil)

end Tokens

end Source

/-- A source that is parsed without a diagnostic is parsed to the same program without a diagnostic
if some of the keywords are left out, provided that no keyword is spelled like a number. -/
theorem parseSource_fewer_keywords {source file : String} {keywords fewer : List String}
    {options : Options} {program : List Statement}
    (hfewer : ∀ word ∈ fewer, word ∈ keywords)
    (hnumbers : ∀ word ∈ keywords, Source.isNumber word.toList = false)
    (hparsed : parseSource source keywords file options = .ok (program, [])) :
    parseSource source fewer file options = .ok (program, []) := by
  rw [parseSource_eq_map] at hparsed ⊢
  cases htokens :
    parseTokens (Source.tokenize source keywords file).1 (some source) options with
  | error halt =>
    rw [htokens] at hparsed
    cases hparsed
  | ok parsed =>
    obtain ⟨statements, diagnostics⟩ := parsed
    rw [htokens] at hparsed
    obtain ⟨rfl, hnone⟩ := Prod.mk.inj (Except.ok.inj hparsed)
    obtain ⟨hlexical, rfl⟩ := List.append_eq_nil_iff.mp hnone
    have hcopy := program_relaxed
      (Input.lexemes_relaxed (Source.tokenize_relaxed hfewer hnumbers source file))
      (program_of_parseTokens htokens)
    -- the diagnostics of the source do not depend on what its keywords are
    have hsame : (Source.tokenize source fewer file).2 = [] := hlexical
    rw [parseTokens_of_done _ hcopy, hsame]
    rfl

/-- A declaration is parsed without any keywords as it is with its own. -/
theorem parseSource_fewer_keywords_none :
    parseSource "let x = 1;" ["let"] "main" {} =
        .ok ([.declaration .variable "x" none (.number (.integer 1))], []) ∧
      parseSource "let x = 1;" [] "main" {} =
        .ok ([.declaration .variable "x" none (.number (.integer 1))], []) := by
  have hparsed : parseSource "let x = 1;" ["let"] "main" {} =
      .ok ([.declaration .variable "x" none (.number (.integer 1))], []) := by
    rfl
  exact ⟨hparsed, parseSource_fewer_keywords (by simp) (by decide) hparsed⟩

end BraceLang
