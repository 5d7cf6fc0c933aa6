import BraceLang.Parser.Type
import BraceLang.Proofs.Spelling.Lists

/-!
# Accounts of nested parsers and of types

What stands inside a construct is accounted for by the layer inside it, with one level less. On the
innermost layer every attempt to nest is a complaint, and a nesting mark is more than the levels
left, so nothing is claimed of the numbers in the group that is passed.
-/

namespace BraceLang

open Language Spellings

/-- What a statement parser has passed is a spelling of the statement; at the end of the input the
semicolon behind a function value may be missing. -/
def Outcome.statement : Outcome Statement :=
  fun statement passed rest reports =>
    reports = [] → passed ∈ statement.spellings ∨ rest = [] ∧ passed ∈ statement.unclosedSpellings

/-- A reply that passes a lexeme, unless it is a stop. -/
def Reply.Moves {α : Type} (unread : List Lexeme) : Reply α → Prop
  | .done _ rest _ | .failed _ rest _ => rest.length < unread.length
  | .stopped _ => True

/-- Every parser of a layer with some levels left accounts for what it passes, and its statement
parser passes a number that is next. -/
structure Layer.Accounts (levels : Nat) (layer : Layer) : Prop where
  type (unread : List Lexeme) :
    (layer.type unread).Accounts levels unread (.spells TypeExpr.spellings)
  expression (literals : Bool) (unread : List Lexeme) :
    (layer.expression literals unread).Accounts levels unread (.spells Expression.spellings)
  operand (literals : Bool) (unread : List Lexeme) :
    (layer.operand literals unread).Accounts levels unread (.spells Expression.spellings)
  statement (unread : List Lexeme) :
    (layer.statement unread).Accounts levels unread .statement
  number {lexeme : Lexeme} (hkind : lexeme.kind = .number) (rest : List Lexeme) :
    (layer.statement (lexeme :: rest)).Moves (lexeme :: rest)

/-- What is inside a construct where some levels may still be opened. -/
inductive InsideAccounts : Nat → Option Layer → Prop where
  | none : InsideAccounts 0 none
  | some {levels : Nat} {layer : Layer} (hlayer : layer.Accounts levels) :
    InsideAccounts (levels + 1) (some layer)

variable {α : Type} {levels : Nat} {inside : Option Layer}

/-- The opening marks of groups are nesting marks. -/
theorem Lexeme.isMarkOf_nestingMarks {lexeme : Lexeme} {marks : List String}
    (hmark : lexeme.isMarkOf marks = true) (hmarks : marks ⊆ nestingMarks) :
    lexeme.isMarkOf nestingMarks = true := by
  simp only [isMarkOf, Bool.and_eq_true, List.contains_iff_mem] at hmark ⊢
  exact ⟨hmark.1, hmarks hmark.2⟩

/-- Where no level is left, a nesting mark is too much, so a group may be passed unread. -/
theorem Reply.Accounts.tooDeep {report : Report} {outcome : Outcome α} {unread rest : List Lexeme}
    (hrest : rest <:+ unread) (hopenings : openings unread ≠ 0) :
    (Reply.failed report rest []).Accounts 0 unread outcome := by
  obtain ⟨passed, hpassed⟩ := hrest
  exact ⟨passed, hpassed.symm, fun hle => absurd (Nat.le_zero.mp hle) hopenings⟩

/-- An account of what is nested is one of the parser that nests it. -/
theorem Reply.Accounts.nested {parser : Layer → Parser α} {unread : List Lexeme}
    {outcome : Outcome α} (hinside : InsideAccounts levels inside)
    (hparser : ∀ left layer, levels = left + 1 → layer.Accounts left →
      (parser layer unread).Accounts (left + 1) unread outcome) :
    (BraceLang.nested inside parser unread).Accounts levels unread outcome := by
  cases hinside with
  | some hlayer => exact hparser _ _ rfl hlayer
  | none =>
    change (Reply.failed _ (behindGroup unread) []).Accounts 0 unread outcome
    by_cases hopenings : openings unread = 0
    · have hstays : behindGroup unread = unread := by
        cases unread with
        | nil => rfl
        | cons lexeme rest =>
          have hmark : ¬lexeme.isMarkOf openers = true := fun hopener => by
            have hnesting := Lexeme.isMarkOf_nestingMarks hopener (by decide)
            rw [openings_cons_of_isMarkOf rest hnesting] at hopenings
            omega
          simp only [behindGroup, if_neg hmark]
      rw [hstays]
      exact .failed
    · exact .tooDeep (Parser.behindGroup_suffix unread) hopenings

/-- The arguments of a type behind the first have commas in front. -/
theorem TypeExpr.separates : Separates (mark ",") TypeExpr.spellings TypeExpr.behindSpellings :=
  ⟨rfl, fun _ _ => rfl⟩

namespace InsideAccounts

variable (hinside : InsideAccounts levels inside)
include hinside

/-- Type arguments, behind the angle bracket that opens them. -/
theorem typeArguments {bracket : Lexeme} (hbracket : bracket.isMarkOf ["<"] = true)
    (rest : List Lexeme) :
    (Parser.typeArguments inside rest).Accounts levels (bracket :: rest)
      (.spells TypeExpr.argumentSpellings) := by
  have hnesting := Lexeme.isMarkOf_nestingMarks hbracket (by decide)
  unfold Parser.typeArguments
  cases hinside with
  | none =>
    rw [Parser.bind_of_failed _ rfl]
    refine .tooDeep ((Parser.behindGroup_suffix rest).trans (List.suffix_cons bracket rest)) ?_
    rw [openings_cons_of_isMarkOf rest hnesting]
    exact Nat.succ_ne_zero _
  | some hlayer =>
    refine .opened hnesting (.bind (Parser.separated_accounts TypeExpr.separates hlayer.type rest)
      ?_)
    intro arguments passed left reports harguments
    refine .expectMark fun closing after _ hclosing => ?_
    refine .cons (Lexeme.isReadable_of_isMarkOf hclosing) (.pure fun hreports => ?_)
    obtain ⟨first, behind, rfl, hpassed⟩ := harguments (by simpa using hreports)
    rw [TypeExpr.argumentSpellings, mul_assoc]
    exact cons_mem (mark_mem hbracket) (append_mem_mul hpassed (mark_mem hclosing))

/-- A type. -/
theorem type (unread : List Lexeme) :
    (Parser.type inside unread).Accounts levels unread (.spells TypeExpr.spellings) := by
  unfold Parser.type
  refine .word fun name rest _ hname => ?_
  have hmem : [name] ∈ word name.text := word_mem (by simp [Lexeme.isWordOf, hname])
  refine .accept (fun bracket after hrest hbracket => ?_) (.pure fun _ => ?_)
  · refine .bind (hinside.typeArguments hbracket after) fun arguments passed left reports
      harguments => ?_
    refine .pure fun hreports => ?_
    rw [TypeExpr.spellings]
    exact cons_mem hmem (by simpa using harguments (by simpa using hreports))
  · rw [TypeExpr.spellings, TypeExpr.argumentSpellings, mul_one]
    exact hmem

/-- A colon and a type, if there is a colon. -/
theorem statedType (unread : List Lexeme) :
    Reply.Accounts levels unread (.spells TypeExpr.annotationSpellings) <|
      Parser.annotation inside unread := by
  unfold Parser.annotation
  refine .accept (fun colon rest _ hcolon => ?_) (.pure fun _ => rfl)
  refine .cons (Lexeme.isReadable_of_isMarkOf hcolon) (.bind (hinside.type rest) ?_)
  intro type passed left reports htype
  refine .pure fun hreports => ?_
  exact cons_mem (mark_mem hcolon) (by simpa using htype (by simpa using hreports))

end InsideAccounts

end BraceLang
