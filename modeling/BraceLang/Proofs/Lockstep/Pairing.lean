import BraceLang.Proofs.Parsing.Runs
import Mathlib.Data.Option.Basic

/-!
# Inputs and their copies

An input is paired with a copy of it by a pairing: what is next is the same in both, except that a
keyword may be an identifier in the copy, and it is so behind the next lexeme as well. Only behind a
semicolon with nothing behind it may the copy go on with something else; what it goes on with there
is told by the pairing. So no parser but one that ends with a semicolon comes to such a place.
-/

namespace BraceLang

open BraceLang.Parser

/-- A lexeme and what may stand for it in a copy: itself, or an identifier for a keyword. -/
inductive Lexeme.Relaxed : Lexeme → Lexeme → Prop
  | same (lexeme : Lexeme) : Relaxed lexeme lexeme
  | keyword (text : String) : Relaxed ⟨.keyword, text⟩ ⟨.identifier, text⟩

namespace Lexeme.Relaxed

variable {lexeme copy : Lexeme} (hcopy : lexeme.Relaxed copy)
include hcopy

/-- The texts are the same. -/
theorem text_eq : copy.text = lexeme.text := by
  cases hcopy <;> rfl

/-- A lexeme that is a mark is one in the copy. -/
theorem isMark_eq : copy.isMark = lexeme.isMark := by
  cases hcopy <;> rfl

/-- It is the same mark. -/
theorem isMarkOf_eq (marks : List String) : copy.isMarkOf marks = lexeme.isMarkOf marks := by
  cases hcopy <;> rfl

/-- A lexeme that is a word is one in the copy. -/
theorem isWord_eq : copy.isWord = lexeme.isWord := by
  cases hcopy <;> rfl

/-- It is the same word. -/
theorem isWordOf_eq (words : List String) : copy.isWordOf words = lexeme.isWordOf words := by
  cases hcopy <;> rfl

/-- A copy ends an input where its lexeme does. -/
theorem ends_eq : (copy.kind != .endOfInput) = (lexeme.kind != .endOfInput) := by
  cases hcopy <;> rfl

/-- Only a keyword may be another lexeme in a copy. -/
theorem eq_of_kind (hkind : lexeme.kind ≠ .keyword) : copy = lexeme := by
  cases hcopy with
  | same => rfl
  | keyword text => exact absurd rfl hkind

end Lexeme.Relaxed

/-- Inputs with their copies. -/
structure Pairing where
  /-- An input and a copy of it. -/
  Paired : List Lexeme → List Lexeme → Prop
  /-- How a copy goes on where its input ends behind a semicolon. -/
  Over : List Lexeme → Prop
  /-- How much longer than its input a copy is. -/
  longer : Nat
  /-- What is next is next in the copy. -/
  head {unread copy : List Lexeme} :
    Paired unread copy → Option.Rel Lexeme.Relaxed unread.head? copy.head?
  /-- What is behind the next lexeme is paired, or that was the last one and a semicolon. -/
  tail {unread copy : List Lexeme} : Paired unread copy →
    Paired unread.tail copy.tail ∨
      unread.head?.any (·.isMarkOf [";"]) = true ∧ unread.tail = [] ∧ Over copy.tail
  length_eq {unread copy : List Lexeme} :
    Paired unread copy → copy.length = unread.length + longer
  length_over {copy : List Lexeme} : Over copy → copy.length = longer

namespace Pairing

variable {pairing : Pairing} {unread copy rest left : List Lexeme}

/-- What may be unread behind a lexeme: an input with its copy, or nothing where the copy goes
on. -/
def After (pairing : Pairing) (unread copy : List Lexeme) : Prop :=
  pairing.Paired unread copy ∨ unread = [] ∧ pairing.Over copy

/-- An input and its copy where no semicolon is next. -/
def Within (pairing : Pairing) (unread copy : List Lexeme) : Prop :=
  pairing.Paired unread copy ∧ unread.head?.any (·.isMarkOf [";"]) = false

/-- A copy stays longer by as much as it was at first. -/
theorem After.length_eq (hafter : pairing.After unread copy) :
    copy.length = unread.length + pairing.longer := by
  rcases hafter with hpaired | ⟨rfl, hover⟩
  · exact pairing.length_eq hpaired
  · simpa using pairing.length_over hover

/-- Behind any lexeme. -/
theorem after_tail (hpaired : pairing.Paired unread copy) :
    pairing.After unread.tail copy.tail :=
  (pairing.tail hpaired).imp_right And.right

/-- Behind a lexeme that is no semicolon. -/
theorem Within.tail (hwithin : pairing.Within unread copy) :
    pairing.Paired unread.tail copy.tail := by
  rcases pairing.tail hwithin.1 with hrest | ⟨hsemicolon, -⟩
  · exact hrest
  · rw [hwithin.2] at hsemicolon
    cases hsemicolon

/-- A test that is passed by no semicolon. -/
def Skips (test : Lexeme → Bool) : Prop :=
  ∀ ⦃lexeme : Lexeme⦄, test lexeme = true → lexeme.isMarkOf [";"] = false

/-- A test for other marks is passed by no semicolon. -/
theorem skips_isMarkOf {marks : List String} (hmarks : ";" ∉ marks) : Skips (·.isMarkOf marks) :=
  fun _ hmark => Lexeme.isMarkOf_semicolon hmark hmarks

/-- Nor is a test for words. -/
theorem skips_isWord : Skips Lexeme.isWord := fun _ hword => Lexeme.isMarkOf_of_isWord hword

/-- Nor is a test for certain words. -/
theorem skips_isWordOf (words : List String) : Skips (·.isWordOf words) :=
  fun _ hword => Lexeme.isMarkOf_of_isWordOf hword

/-- What passes such a test is next. -/
theorem within_of_any (hpaired : pairing.Paired unread copy) {test : Lexeme → Bool}
    (htest : Skips test) (hany : unread.head?.any test = true) : pairing.Within unread copy := by
  obtain ⟨lexeme, rest, rfl, hlexeme⟩ := exists_cons_of_head_any hany
  exact ⟨hpaired, htest hlexeme⟩

/-- A mark that is no semicolon is next. -/
theorem within_of_mark (hpaired : pairing.Paired unread copy) {marks : List String}
    (hmarks : ";" ∉ marks) (hmark : unread.head?.any (·.isMarkOf marks) = true) :
    pairing.Within unread copy :=
  within_of_any hpaired (skips_isMarkOf hmarks) hmark

/-- A lexeme that is no semicolon is next. -/
theorem within_of_head {lexeme : Lexeme} (hpaired : pairing.Paired unread copy)
    (hhead : unread.head? = some lexeme) (hother : lexeme.isMarkOf [";"] = false) :
    pairing.Within unread copy :=
  ⟨hpaired, by rw [hhead, Option.any_some, hother]⟩

/-- A test that does not tell lexemes from those in copies. -/
def Blind (test : Lexeme → Bool) : Prop :=
  ∀ ⦃lexeme copy : Lexeme⦄, lexeme.Relaxed copy → test copy = test lexeme

/-- A test for marks does not tell the copy of a lexeme from it. -/
theorem blind_isMarkOf (marks : List String) : Blind (·.isMarkOf marks) :=
  fun _ _ hcopy => hcopy.isMarkOf_eq marks

/-- Nor does a test for certain words. -/
theorem blind_isWordOf (words : List String) : Blind (·.isWordOf words) :=
  fun _ _ hcopy => hcopy.isWordOf_eq words

/-- Nor does a test for words. -/
theorem blind_isWord : Blind Lexeme.isWord := fun _ _ hcopy => hcopy.isWord_eq

/-- An input with a first lexeme has a copy with one. -/
theorem exists_cons {lexeme : Lexeme} (hpaired : pairing.Paired (lexeme :: rest) copy) :
    ∃ first left, copy = first :: left ∧ lexeme.Relaxed first := by
  have hhead := pairing.head hpaired
  cases copy with
  | nil => cases hhead
  | cons first left =>
    cases hhead with
    | some hfirst => exact ⟨first, left, rfl, hfirst⟩

/-- The next lexeme passes such a test if it does so in the copy. -/
theorem head_any (hpaired : pairing.Paired unread copy) {test : Lexeme → Bool}
    (htest : Blind test) : copy.head?.any test = unread.head?.any test := by
  have hhead := pairing.head hpaired
  revert hhead
  generalize unread.head? = next
  generalize copy.head? = first
  rintro (hfirst | -)
  · exact htest hfirst
  · rfl

/-- Nothing is unread if nothing is unread in the copy. -/
theorem head_isNone (hpaired : pairing.Paired unread copy) :
    copy.head?.isNone = unread.head?.isNone := by
  have hhead := pairing.head hpaired
  revert hhead
  generalize unread.head? = next
  generalize copy.head? = first
  rintro (hfirst | -) <;> rfl

/-- The binary operator that is next is next in the copy. -/
theorem head_operator (hpaired : pairing.Paired unread copy)
    {filter : BinaryOperator → Bool} :
    (copy.head?.bind fun lexeme =>
      if lexeme.isMark then (BinaryOperator.ofSpelling? lexeme.text).filter filter else none) =
    unread.head?.bind fun lexeme =>
      if lexeme.isMark then (BinaryOperator.ofSpelling? lexeme.text).filter filter else none := by
  have hhead := pairing.head hpaired
  revert hhead
  generalize unread.head? = next
  generalize copy.head? = first
  rintro (hfirst | -)
  · simp only [Option.bind_some, hfirst.isMark_eq, hfirst.text_eq]
  · rfl

/-- The lexeme behind the next one passes such a test if it does so in the copy. -/
theorem Within.second_any (hwithin : pairing.Within unread copy) {test : Lexeme → Bool}
    (htest : Blind test) : copy[1]?.any test = unread[1]?.any test := by
  simpa [List.head?_eq_getElem?] using head_any hwithin.tail htest

/-- What is asked is whether a mark is next, and whether a certain lexeme is behind it. -/
theorem second_same (hpaired : pairing.Paired unread copy) {marks : List String}
    (hmarks : ";" ∉ marks) {test : Lexeme → Bool} (htest : Blind test) :
    (copy.head?.any (·.isMarkOf marks) && copy[1]?.any test) =
      (unread.head?.any (·.isMarkOf marks) && unread[1]?.any test) := by
  rw [head_any hpaired (blind_isMarkOf marks)]
  cases hmark : unread.head?.any (·.isMarkOf marks) with
  | false => rfl
  | true => rw [(within_of_mark hpaired hmarks hmark).second_any htest]

end Pairing

end BraceLang
