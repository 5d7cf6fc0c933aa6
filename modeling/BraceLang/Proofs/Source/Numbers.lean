import BraceLang.Proofs.Parsing.Completion
import BraceLang.Proofs.Parsing.Stages
import BraceLang.Proofs.Printing.Numerals
import BraceLang.Proofs.Source.LineBreaks

/-!
# Numbers of a source

What a source spells as a number is a decimal numeral, and such a numeral is read unless it is a
whole one of more digits than an integer may have. Nothing else stops the parsing of a source, so it
comes to a program unless there is such a numeral in it.
-/

namespace BraceLang

/-- A number without a point and with more digits than an integer may have. -/
def Lexeme.IsOverlong (lexeme : Lexeme) : Prop :=
  lexeme.kind = .number ∧ '.' ∉ lexeme.text.toList ∧ Numeral.maxDigits < lexeme.text.length

namespace Source

variable {keywords : List String} {file source : String}

/-- A decimal numeral is read unless it is a whole one with too many digits. -/
theorem IsDecimal.read {text : List Char} (hdecimal : IsDecimal text) :
    ('.' ∉ text ∧ Numeral.maxDigits < text.length ∧
      Numeral.read (.ofList text) = .error (.tooManyDigits text.length)) ∨
    (('.' ∈ text ∨ text.length ≤ Numeral.maxDigits) ∧
      ∃ value, Numeral.read (.ofList text) = .ok value) := by
  obtain ⟨whole, point, fraction, rfl, hwhole, rfl | rfl, hne, hfraction⟩ := hdecimal
  · rw [List.nil_append]
    have hdigits : ∀ c ∈ whole ++ fraction, c.isDigit = true :=
      List.forall_mem_append.mpr ⟨hwhole, hfraction⟩
    have hread := Numeral.read_digits hdigits (by simp [hne])
    have hpoint : '.' ∉ whole ++ fraction := by
      simpa [List.contains_eq_mem] using Numeral.contains_point_digits hdigits
    by_cases hlong : Numeral.maxDigits < (whole ++ fraction).length
    · rw [if_pos hlong] at hread
      exact .inl ⟨hpoint, hlong, hread⟩
    · rw [if_neg hlong] at hread
      exact .inr ⟨.inr (Nat.le_of_not_lt hlong), _, hread⟩
  · exact .inr ⟨.inl (by simp), _, Numeral.read_point hwhole hfraction hne⟩

/-- A number of a source is a decimal numeral. -/
theorem isDecimal_of_mem_tokenization {token : Token}
    (hmem : token ∈ (tokenization source keywords file).tokens) (hkind : token.kind = .number) :
    IsDecimal token.text.toList := by
  obtain ⟨spelling, hspells⟩ := spells_of_mem_tokenization hmem
  obtain ⟨⟨kind, text⟩, place⟩ := token
  obtain rfl : kind = .number := hkind
  cases hspells with
  | number hword hnot hdecimal => simpa using hdecimal

end Source

/-- Parsing tokens comes to a program or stops at a number that cannot be read. -/
theorem parseTokens_account (tokens : List Token) (source : Option String) (options : Options) :
    let lexemes := (Input.ofTokens tokens).lexemes
    (∃ program diagnostics, parseTokens tokens source options = .ok (program, diagnostics) ∧
      (openings lexemes ≤ maxNesting → ∀ lexeme ∈ lexemes, lexeme.IsReadable)) ∨
    ∃ error, parseTokens tokens source options = .error (.unreadable error) ∧
      ∃ lexeme ∈ lexemes, lexeme.IsUnreadable error := by
  intro lexemes
  have haccount := program_accounts options lexemes
  cases hreply : Parser.program options lexemes with
  | done program rest reports =>
    rw [hreply] at haccount
    obtain ⟨passed, hsplit, hread, rfl, -⟩ := haccount
    rw [List.append_nil] at hsplit
    exact .inl ⟨_, _, parseTokens_of_done source hreply, fun hnesting => hsplit ▸ hread hnesting⟩
  | failed => exact absurd hreply (program_recovers options lexemes).ne_failed
  | stopped halt =>
    rw [hreply] at haccount
    obtain ⟨error, rfl, hlexeme⟩ := haccount
    exact .inr ⟨error, parseTokens_of_stopped source hreply, hlexeme⟩

namespace Source

variable {keywords : List String} {file source : String}

/-- The lexemes that are parsed of a source are those of its tokens in front of the end. -/
theorem lexemes_tokenize : (Input.ofTokens (tokenize source keywords file).1).lexemes =
    (tokenization source keywords file).tokens.map Token.toLexeme := by
  have hinside : ∀ token ∈ (tokenization source keywords file).tokens,
      Input.isInside token = true := fun token hmem => by
    simpa [Input.isInside] using kind_ne_of_mem_tokenization hmem
  change (Input.ofTokens ((tokenization source keywords file).tokens ++ [_])).lexemes = _
  rw [Input.lexemes_ofTokens, List.takeWhile_append_of_pos hinside]
  simp [Input.isInside, Token.ending]

/-- A number of a source is read, unless it is overlong. -/
theorem read_number {token : Token} (hmem : token ∈ (tokenize source keywords file).1)
    (hkind : token.kind = .number) :
    (token.IsOverlong ∧
      Numeral.read token.text = .error (.tooManyDigits token.text.length)) ∨
    (¬token.IsOverlong ∧ ∃ value, Numeral.read token.text = .ok value) := by
  rcases List.mem_append.mp hmem with hinner | hend
  · have hread := (isDecimal_of_mem_tokenization hinner hkind).read
    rw [String.ofList_toList, String.length_toList] at hread
    rcases hread with ⟨hpoint, hlong, herror⟩ | ⟨hshort, hvalue⟩
    · exact .inl ⟨⟨hkind, hpoint, hlong⟩, herror⟩
    · refine .inr ⟨fun hoverlong => ?_, hvalue⟩
      obtain ⟨-, hnone, hlong⟩ := hoverlong
      rcases hshort with hpoint | hle
      · exact hnone hpoint
      · exact absurd hlong (Nat.not_lt.mpr hle)
  · rw [List.eq_of_mem_replicate hend] at hkind
    cases hkind

/-- An overlong number of a source cannot be read. -/
theorem not_isReadable_of_isOverlong {token : Token}
    (hmem : token ∈ (tokenize source keywords file).1) (hoverlong : token.IsOverlong) :
    ¬token.IsReadable := by
  intro hreadable
  obtain ⟨value, hvalue⟩ := hreadable hoverlong.1
  rcases read_number hmem hoverlong.1 with ⟨-, herror⟩ | ⟨hshort, -⟩
  · rw [herror] at hvalue
    cases hvalue
  · exact hshort hoverlong

section Ones

variable {count : Nat}

/-- A row of ones is one number. -/
theorem lexemes_ones (hcount : 0 < count) :
    let ones := List.replicate count '1'
    (tokenize (.ofList ones) [] file).1.map Token.toLexeme =
      [⟨.number, .ofList ones⟩, ⟨.endOfInput, ""⟩] := by
  intro ones
  have hones : ∀ c ∈ ones, c = '1' := fun c => List.eq_of_mem_replicate
  have hne : ones ≠ [] := List.ne_nil_of_length_pos (by simpa [ones] using hcount)
  have hspells : Spells [] ones ⟨.number, .ofList ones⟩ :=
    .number (.plain hne fun c hmem => hones c hmem ▸ by decide) (by simp)
      ⟨[], [], ones, rfl, nofun, .inl rfl, hne, fun c hmem => hones c hmem ▸ by decide⟩
  have hlaid : LaidOut [] (String.ofList ones).toList [⟨.number, .ofList ones⟩] := by
    rw [String.toList_ofList]
    exact .flush (.last hspells)
  obtain ⟨pieces, hpieces, hlexemes⟩ := hlaid.lexes.scanFrom (Nat.le_refl _)
  have hscan : scan (String.ofList ones).toList = ⟨pieces, none⟩ := hpieces
  simp only [tokenize, tokenization, Tokenization.complete, hscan, List.map_append,
    map_toLexeme_tokensAt, hlexemes]
  rfl

/-- The number has as many digits as there are ones. -/
theorem length_of_mem_ones (hcount : 0 < count) {token : Token}
    (hmem : token ∈ (tokenize (.ofList (List.replicate count '1')) [] file).1)
    (hkind : token.kind = .number) : token.text.length = count := by
  have hlexeme := List.mem_map_of_mem hmem (f := Token.toLexeme)
  rw [lexemes_ones hcount, List.mem_pair] at hlexeme
  rcases hlexeme with hnumber | hend
  · rw [hnumber, String.length_ofList, List.length_replicate]
  · rw [hend] at hkind
    cases hkind

/-- A row of too many ones is an overlong number. -/
theorem exists_overlong_ones (hcount : Numeral.maxDigits < count) :
    ∃ token ∈ (tokenize (.ofList (List.replicate count '1')) [] file).1, token.IsOverlong := by
  have hone := List.mem_cons_self (a := Lexeme.mk .number (.ofList (List.replicate count '1')))
    (l := [⟨.endOfInput, ""⟩])
  rw [← lexemes_ones (Nat.zero_lt_of_lt hcount)] at hone
  obtain ⟨token, hmem, htoken⟩ := List.mem_map.mp hone
  refine ⟨token, hmem, ?_⟩
  rw [htoken]
  refine ⟨rfl, ?_, ?_⟩
  · rw [String.toList_ofList]
    exact fun hpoint => absurd (List.eq_of_mem_replicate hpoint) (by decide)
  · rwa [String.length_ofList, List.length_replicate]

/-- A row of ones opens no level of nesting. -/
theorem openings_ones (hcount : 0 < count) : openings
    ((tokenize (.ofList (List.replicate count '1')) [] file).1.map Token.toLexeme) ≤
      maxNesting := by
  rw [lexemes_ones hcount]
  exact Nat.zero_le _

end Ones

end Source

/-- Parsing a source comes to a program or stops at an overlong number. -/
theorem parseSource_account (source : String) (keywords : List String) (file : String)
    (options : Options) :
    let tokens := (Source.tokenize source keywords file).1
    (∃ program diagnostics,
      parseSource source keywords file options = .ok (program, diagnostics) ∧
        (openings (tokens.map Token.toLexeme) ≤ maxNesting →
          ∀ token ∈ tokens, ¬token.IsOverlong)) ∨
    ∃ token ∈ tokens, token.IsOverlong ∧ parseSource source keywords file options =
      .error (.unreadable (.tooManyDigits token.text.length)) := by
  intro tokens
  have hcomplete : tokens = (Source.tokenization source keywords file).tokens ++ [_] := rfl
  rw [parseSource_eq_map]
  rcases parseTokens_account tokens (some source) options with
    ⟨program, diagnostics, hparsed, hread⟩ | ⟨error, hparsed, lexeme, hlexeme, hnumber, herror⟩
  · refine .inl ⟨_, _, by rw [hparsed]; rfl, fun hnesting token hmem hoverlong => ?_⟩
    rw [Source.lexemes_tokenize] at hread
    rw [hcomplete, List.map_append, openings_append] at hnesting
    rcases List.mem_append.mp hmem with hinner | hend
    · exact Source.not_isReadable_of_isOverlong hmem hoverlong
        (hread (by omega) _ (List.mem_map_of_mem hinner))
    · rw [List.mem_singleton.mp hend] at hoverlong
      cases hoverlong.1
  · rw [Source.lexemes_tokenize] at hlexeme
    obtain ⟨token, hinner, rfl⟩ := List.mem_map.mp hlexeme
    have hmem : token ∈ tokens := List.mem_append_left _ hinner
    refine .inr ⟨token, hmem, ?_⟩
    rcases Source.read_number hmem hnumber with ⟨hoverlong, hlong⟩ | ⟨-, value, hvalue⟩
    · obtain rfl := Except.error.inj (herror.symm.trans hlong)
      exact ⟨hoverlong, by rw [hparsed]; rfl⟩
    · rw [herror] at hvalue
      cases hvalue

end BraceLang
