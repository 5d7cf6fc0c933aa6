import BraceLang.Machine.Reading
import BraceLang.Proofs.Recovery.Resynchronisation

/-!
# What a machine sees of tokens

Parsers are given what is unread of an input that has been cut off at its first end token. A machine
has all tokens in front of it instead, end tokens and whatever follows them included, and only the
checks in its steps keep it from passing an end token. So wherever it stands, what it finds of the
next tokens is what the parsers find of the lexemes up to the first end token.
-/

namespace BraceLang.Machine

open BraceLang.Parser

/-- The lexemes of some tokens up to the first end token. -/
def lexemesOf (unread : List Token) : List Lexeme := (Input.ofTokens unread).lexemes

variable {setting : Setting} {tokens unread : List Token} {token : Token}

section Lexemes

/-- Where there are no tokens there are no lexemes. -/
@[simp] theorem lexemesOf_nil : lexemesOf [] = [] := rfl

/-- A token that does not end an input is the first lexeme. -/
theorem lexemesOf_cons (rest : List Token) (hinside : Input.isInside token = true) :
    lexemesOf (token :: rest) = token.toLexeme :: lexemesOf rest := by
  rw [lexemesOf, lexemesOf, Input.lexemes_ofTokens, Input.lexemes_ofTokens,
    List.takeWhile_cons_of_pos hinside, List.map_cons]

/-- Nothing is in front of an end token. -/
theorem lexemesOf_cons_of_ending (rest : List Token) (hending : ¬Input.isInside token = true) :
    lexemesOf (token :: rest) = [] := by
  rw [lexemesOf, Input.lexemes_ofTokens, List.takeWhile_cons_of_neg hending, List.map_nil]

/-- There are no more lexemes than tokens. -/
theorem length_lexemesOf_le (unread : List Token) : (lexemesOf unread).length ≤ unread.length := by
  rw [lexemesOf, Input.lexemes_ofTokens, List.length_map]
  exact (List.takeWhile_prefix _).length_le

/-- What is found of a token that does not end an input is its lexeme. -/
theorem found_of_isInside (hinside : Input.isInside token = true) :
    token.found = some token.toLexeme := by
  rw [Token.found, if_pos hinside]

/-- Nothing is found of an end token. -/
theorem found_of_ending (hending : ¬Input.isInside token = true) : token.found = none := by
  rw [Token.found, if_neg hending]

end Lexemes

section Steps

/-- The first token is next. -/
theorem current_cons (setting : Setting) (token : Token) (rest : List Token) :
    setting.current (token :: rest) = token := rfl

/-- What is found of the next token is the next lexeme. -/
theorem found_current (setting : Setting) (unread : List Token) :
    (setting.current unread).found = (lexemesOf unread).head? := by
  cases unread with
  | nil => rfl
  | cons token rest =>
    by_cases hinside : Input.isInside token = true
    · rw [lexemesOf_cons rest hinside]
      exact found_of_isInside hinside
    · rw [lexemesOf_cons_of_ending rest hinside]
      exact found_of_ending hinside

/-- Where there is a next lexeme, the token behind the next one is looked at no further than
there is need for. -/
theorem found_second (hsome : lexemesOf unread ≠ []) :
    (setting.current unread.tail).found = (lexemesOf unread)[1]? := by
  cases unread with
  | nil => exact absurd rfl hsome
  | cons token rest =>
    by_cases hinside : Input.isInside token = true
    · rw [lexemesOf_cons rest hinside, List.tail_cons, found_current, List.head?_eq_getElem?]
      rfl
    · exact absurd (lexemesOf_cons_of_ending rest hinside) hsome

/-- The next token is a mark if the next lexeme is one. -/
theorem isMarkOf_current (setting : Setting) (unread : List Token) (marks : List String) :
    (setting.current unread).isMarkOf marks =
      (lexemesOf unread).head?.any (·.isMarkOf marks) := by
  rw [← found_current setting]
  by_cases hinside : Input.isInside (setting.current unread) = true
  · rw [found_of_isInside hinside, Option.any_some]
  · rw [found_of_ending hinside, Option.any_none]
    exact Bool.eq_false_iff.mpr fun hmark => hinside (Input.isInside_of_isMarkOf hmark)

/-- Passing a token passes the next lexeme. -/
theorem lexemesOf_pass (setting : Setting) (unread : List Token) :
    lexemesOf (setting.pass unread) = (lexemesOf unread).tail := by
  unfold Setting.pass
  cases unread with
  | nil => rfl
  | cons token rest =>
    rw [current_cons]
    by_cases hinside : Input.isInside token = true
    · rw [if_pos hinside, lexemesOf_cons rest hinside, List.tail_cons, List.tail_cons]
    · rw [if_neg hinside, lexemesOf_cons_of_ending rest hinside, List.tail_nil]

/-- Open groups are passed as the parsers pass them. -/
theorem lexemesOf_behindGroups (depth : Nat) (unread : List Token) :
    lexemesOf (behindGroups depth unread) = BraceLang.behindGroups depth (lexemesOf unread) := by
  induction unread generalizing depth with
  | nil => rfl
  | cons token rest ih =>
    by_cases hinside : Input.isInside token = true
    · rw [behindGroups, hinside, Bool.not_true, if_neg Bool.false_ne_true,
        lexemesOf_cons rest hinside, BraceLang.behindGroups]
      simp only [apply_ite lexemesOf, ih]
    · have hending : (!Input.isInside token) = true := by simpa using hinside
      rw [behindGroups, if_pos hending, lexemesOf_cons_of_ending rest hinside]
      rfl

/-- So is the group that begins with the next token. -/
theorem lexemesOf_passGroup (setting : Setting) (unread : List Token) :
    lexemesOf (setting.passGroup unread) = behindGroup (lexemesOf unread) := by
  rw [Setting.passGroup, isMarkOf_current]
  split
  · next hopener =>
    obtain ⟨lexeme, rest, hunread, hlexeme⟩ := exists_cons_of_head_any hopener
    rw [lexemesOf_behindGroups, hunread, behindGroup, if_pos hlexeme, BraceLang.behindGroups,
      if_pos hlexeme]
  · next hopener =>
    cases hunread : lexemesOf unread with
    | nil => rfl
    | cons lexeme rest =>
      have hlexeme : ¬lexeme.isMarkOf openers = true := by simpa [hunread] using hopener
      rw [behindGroup, if_neg hlexeme]

end Steps

/-- What is left of some tokens where no end token has been passed. -/
def IsLeft (tokens unread : List Token) : Prop :=
  ∃ passed, tokens = passed ++ unread ∧ ∀ token ∈ passed, Input.isInside token = true

namespace IsLeft

/-- All is left at first. -/
theorem refl (tokens : List Token) : IsLeft tokens tokens :=
  ⟨[], rfl, fun _ hmem => nomatch hmem⟩

/-- Where the first token that is left does not end the input, the others are left behind it. -/
theorem tail {rest : List Token} (hleft : IsLeft tokens (token :: rest))
    (hinside : Input.isInside token = true) : IsLeft tokens rest := by
  obtain ⟨passed, rfl, hpassed⟩ := hleft
  refine ⟨passed ++ [token], by rw [List.append_assoc, List.singleton_append], ?_⟩
  intro other hother
  rcases List.mem_append.mp hother with hother | hother
  · exact hpassed other hother
  · rwa [List.mem_singleton.mp hother]

variable (hleft : IsLeft tokens unread)
include hleft

/-- What is left is a part at the end. -/
theorem suffix : unread <:+ tokens := by
  obtain ⟨passed, rfl, -⟩ := hleft
  exact List.suffix_append passed unread

/-- So are its lexemes. -/
theorem lexemes_suffix : lexemesOf unread <:+ lexemesOf tokens := by
  obtain ⟨passed, rfl, hpassed⟩ := hleft
  rw [lexemesOf, lexemesOf, Input.lexemes_ofTokens_append unread hpassed]
  exact List.suffix_append _ _

/-- As many tokens have been passed as lexemes. -/
theorem length_eq :
    (lexemesOf unread).length + tokens.length = (lexemesOf tokens).length + unread.length := by
  obtain ⟨passed, rfl, hpassed⟩ := hleft
  have hlexemes : lexemesOf (passed ++ unread) = passed.map Token.toLexeme ++ lexemesOf unread :=
    Input.lexemes_ofTokens_append unread hpassed
  rw [hlexemes, List.length_append, List.length_append, List.length_map]
  omega

/-- The token that is next is told by how many lexemes are left. -/
theorem current_eq (limit : Option Nat) :
    (Setting.over tokens limit).current unread =
      (Input.ofTokens tokens).tokenAt (lexemesOf unread).length := by
  obtain ⟨passed, rfl, hpassed⟩ := hleft
  have hlexemes := Input.lexemes_ofTokens unread
  have htake : (passed ++ unread).takeWhile Input.isInside =
      passed ++ unread.takeWhile Input.isInside := List.takeWhile_append_of_pos hpassed
  have hdrop : (passed ++ unread).dropWhile Input.isInside = unread.dropWhile Input.isInside :=
    List.dropWhile_append_of_pos hpassed
  have hlength : (lexemesOf unread).length = (unread.takeWhile Input.isInside).length := by
    rw [lexemesOf, hlexemes, List.length_map]
  have hposition : (passed ++ unread.takeWhile Input.isInside).length -
      (unread.takeWhile Input.isInside).length = passed.length := by
    rw [List.length_append, Nat.add_sub_cancel]
  simp only [Input.tokenAt, Input.ofTokens, htake, hdrop, hlength, List.size_toArray, hposition,
    List.getElem?_toArray, List.getElem?_append_right (Nat.le_refl _), Nat.sub_self]
  cases unread with
  | nil => rfl
  | cons token rest =>
    by_cases hinside : Input.isInside token = true
    · rw [List.takeWhile_cons_of_pos hinside]
      rfl
    · rw [List.takeWhile_cons_of_neg hinside, List.dropWhile_cons_of_neg hinside]
      rfl

/-- Passing a token keeps to what is left. -/
theorem pass (setting : Setting) : IsLeft tokens (setting.pass unread) := by
  unfold Setting.pass
  cases unread with
  | nil =>
    rw [List.tail_nil, ite_self]
    exact hleft
  | cons token rest =>
    rw [current_cons]
    split
    · next hinside => exact hleft.tail hinside
    · exact hleft

/-- So does passing open groups. -/
theorem behindGroups (depth : Nat) : IsLeft tokens (behindGroups depth unread) := by
  induction unread generalizing depth with
  | nil => exact hleft
  | cons token rest ih =>
    rw [Machine.behindGroups]
    split
    · exact hleft
    · next hinside =>
      have hrest : IsLeft tokens rest := hleft.tail (by simpa using hinside)
      split
      · exact ih hrest (depth + 1)
      · split
        · split
          · exact hrest
          · exact ih hrest (depth - 1)
        · exact ih hrest depth

/-- And passing the group that begins with the next token. -/
theorem passGroup (setting : Setting) : IsLeft tokens (setting.passGroup unread) := by
  unfold Setting.passGroup
  split
  · exact hleft.behindGroups 0
  · exact hleft

end IsLeft

end BraceLang.Machine
