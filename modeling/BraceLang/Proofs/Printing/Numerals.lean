import BraceLang.Number.Numeral
import Mathlib.Data.List.TakeDrop
import Mathlib.Data.List.TakeWhile

/-!
# Reading plain numerals

A plain numeral is made of ASCII digits and points. None of these is a blank, a sign or an
underscore, so reading takes all of the text as it is: a row of digits as an integer, unless they
are too many, and digits with a point in front of the last of them as a real. The digits of a
natural number are the number again.
-/

namespace BraceLang.Numeral

/-- A digit of ASCII is one of ten characters in a row. -/
theorem bounds_of_isDigit {c : Char} (hdigit : c.isDigit = true) : 48 ≤ c.toNat ∧ c.toNat ≤ 57 := by
  simp only [Char.isDigit, Bool.and_eq_true, decide_eq_true_eq] at hdigit
  exact hdigit

/-- A digit of ASCII is no character of another code. -/
theorem ne_of_isDigit {c other : Char} (hdigit : c.isDigit = true)
    (hother : other.isDigit = false) :
    c ≠ other := by
  rintro rfl
  rw [hdigit] at hother
  cases hother

/-- A digit of ASCII or a point. -/
def IsPlain (c : Char) : Prop := c.isDigit = true ∨ c = '.'

/-- A plain character is no other one. -/
theorem IsPlain.ne {c other : Char} (hplain : IsPlain c) (hother : ¬IsPlain other) : c ≠ other := by
  rintro rfl
  exact hother hplain

section Plain

variable {text : List Char} (hplain : ∀ c ∈ text, IsPlain c)
include hplain

/-- Plain characters are in ASCII already. -/
theorem asciiText_plain : asciiText text = text := by
  have hform (c : Char) (hc : c ∈ text) : asciiForm c = c := by
    rcases hplain c hc with hdigit | rfl
    · have hbounds := bounds_of_isDigit hdigit
      rw [asciiForm, if_pos (by omega)]
    · rfl
  rw [asciiText, List.map_congr_left hform, List.map_id']

/-- There are no blanks in front of plain characters. -/
theorem afterBlanks_plain : afterBlanks text = text := by
  cases text with
  | nil => rfl
  | cons first rest =>
    have hblank : isAsciiBlank first = false := by
      rcases hplain first List.mem_cons_self with hdigit | rfl
      · have hbounds := bounds_of_isDigit hdigit
        have hspace := ne_of_isDigit hdigit (show ' '.isDigit = false by decide)
        simp only [isAsciiBlank, Bool.or_eq_false_iff, beq_eq_false_iff_ne, Bool.and_eq_false_iff,
          decide_eq_false_iff_not]
        exact ⟨hspace, by omega⟩
      · rfl
    rw [afterBlanks, List.dropWhile_cons_of_neg (by simp [hblank])]

/-- There is no sign in front of plain characters. -/
theorem splitSign_plain : splitSign text = (false, text) := by
  unfold splitSign
  split
  · exact absurd rfl ((hplain '-' List.mem_cons_self).ne (by unfold IsPlain; decide))
  · exact absurd rfl ((hplain '+' List.mem_cons_self).ne (by unfold IsPlain; decide))
  · rfl

/-- Where there are no underscores, none stands alone. -/
theorem underscoresSeparate_plain (before : Bool) : underscoresSeparate before text = true := by
  induction text generalizing before with
  | nil => rfl
  | cons first rest ih =>
    have hrest := ih (fun c hc => hplain c (List.mem_cons_of_mem first hc)) first.isDigit
    unfold underscoresSeparate
    split
    · cases ‹first :: rest = []›
    · next hsame =>
      obtain ⟨rfl, -⟩ := List.cons.inj hsame
      exact absurd rfl ((hplain '_' List.mem_cons_self).ne (by unfold IsPlain; decide))
    · simp_all

/-- There are no underscores to leave out. -/
theorem filter_plain : text.filter (· != '_') = text := by
  refine List.filter_eq_self.mpr fun c hc => ?_
  simpa using (hplain c hc).ne (show ¬IsPlain '_' by unfold IsPlain; decide)

end Plain

section Integers

variable {digits : List Char} (hdigits : ∀ c ∈ digits, c.isDigit = true)
include hdigits

/-- A row of digits is an integer unless the digits are too many. -/
theorem integer_digits (hne : digits ≠ []) : integer digits =
    if maxDigits < digits.length then .error (.tooManyDigits digits.length)
    else .ok (natural digits : Int) := by
  have hplain (c : Char) (hc : c ∈ digits) : IsPlain c := .inl (hdigits c hc)
  have hspan : digits.span (fun c => c.isDigit || c == '_') = (digits, []) := by
    rw [List.span_eq_takeWhile_dropWhile, List.takeWhile_eq_self_iff.mpr,
      List.dropWhile_eq_nil_iff.mpr]
    · exact fun c hc => by simp [hdigits c hc]
    · exact fun c hc => by simp [hdigits c hc]
  unfold integer
  rw [afterBlanks_plain hplain, splitSign_plain hplain]
  simp only [hspan, filter_plain hplain, underscoresSeparate_plain hplain false]
  rw [if_neg (by simpa using hne)]
  rfl

/-- There is no point among digits. -/
theorem contains_point_digits : digits.contains '.' = false := by
  rw [List.contains_eq_mem, decide_eq_false_iff_not]
  exact fun hmem => absurd (hdigits '.' hmem) (by decide)

/-- A row of digits is read as an integer unless the digits are too many. -/
theorem read_digits (hne : digits ≠ []) : read (.ofList digits) =
    if maxDigits < digits.length then .error (.tooManyDigits digits.length)
    else .ok (.integer (natural digits)) := by
  have hplain (c : Char) (hc : c ∈ digits) : IsPlain c := .inl (hdigits c hc)
  unfold read readInteger
  rw [String.toList_ofList, contains_point_digits hdigits, if_neg (by simp),
    asciiText_plain hplain, integer_digits hdigits hne]
  split <;> rfl

end Integers

/-- A natural number is read from its decimal digits, if they are not too many. -/
theorem read_repr {value : Nat} (hlength : (Nat.toDigits 10 value).length ≤ maxDigits) :
    read value.repr = .ok (.integer value) := by
  have hdigits (c : Char) (hc : c ∈ Nat.toDigits 10 value) : c.isDigit = true :=
    Nat.isDigit_of_mem_toDigits (by decide) (by decide) hc
  have hnatural : natural (Nat.toDigits 10 value) = value := Nat.ofDigitChars_ten_toDigits
  have hrepr : value.repr = .ofList (Nat.toDigits 10 value) := by
    rw [← Nat.toList_repr, String.ofList_toList]
  rw [hrepr, read_digits hdigits Nat.toDigits_ne_nil, if_neg (by omega), hnatural]

section Reals

variable {whole fraction : List Char} (hwhole : ∀ c ∈ whole, c.isDigit = true)
  (hfraction : ∀ c ∈ fraction, c.isDigit = true)
include hwhole hfraction

/-- Digits with a point are a decimal, of any length. -/
theorem readDecimal_point (hne : fraction ≠ []) : readDecimal (whole ++ '.' :: fraction) =
    some ⟨natural (whole ++ fraction), -fraction.length⟩ := by
  have hspan : (whole ++ '.' :: fraction).span Char.isDigit = (whole, '.' :: fraction) := by
    rw [List.span_eq_takeWhile_dropWhile, List.takeWhile_append_of_pos hwhole,
      List.dropWhile_append_of_pos hwhole]
    simp
  have hrest : fraction.span Char.isDigit = (fraction, []) := by
    rw [List.span_eq_takeWhile_dropWhile, List.takeWhile_eq_self_iff.mpr hfraction,
      List.dropWhile_eq_nil_iff.mpr hfraction]
  unfold readDecimal
  simp only [hspan, hrest]
  rw [if_neg (by simp [hne])]
  simp [readExponent]

/-- Digits with a point in front of the last of them are read as a real. -/
theorem read_point (hne : fraction ≠ []) : read (.ofList (whole ++ '.' :: fraction)) =
    .ok (.real (.ofDecimal false ⟨natural (whole ++ fraction), -fraction.length⟩)) := by
  have hplain : ∀ c ∈ whole ++ '.' :: fraction, IsPlain c := by
    intro c hc
    rcases List.mem_append.mp hc with hleft | hright
    · exact .inl (hwhole c hleft)
    · exact (List.mem_cons.mp hright).symm.imp_left (hfraction c)
  have hreverse : ∀ c ∈ (whole ++ '.' :: fraction).reverse, IsPlain c :=
    fun c hc => hplain c (List.mem_reverse.mp hc)
  have hpoint : (whole ++ '.' :: fraction).contains '.' = true := by simp
  -- The words for numbers that are not finite have no point.
  have hword {word : String} (hnone : '.' ∉ word.toList) :
      (String.ofList ((whole ++ '.' :: fraction).map Char.toLower) == word) = false := by
    rw [beq_eq_false_iff_ne]
    rintro rfl
    refine hnone ?_
    rw [String.toList_ofList]
    exact List.mem_map.mpr ⟨'.', by simp, by decide⟩
  have hreal : real? (whole ++ '.' :: fraction) =
      some (.ofDecimal false ⟨natural (whole ++ fraction), -fraction.length⟩) := by
    have htrailing := afterBlanks_plain hreverse
    rw [afterBlanks] at htrailing
    unfold real? readBinary64
    simp only [afterBlanks_plain hplain, htrailing, List.reverse_reverse,
      underscoresSeparate_plain hplain, filter_plain hplain, splitSign_plain hplain, if_true,
      hword (show '.' ∉ "inf".toList by decide), hword (show '.' ∉ "infinity".toList by decide),
      hword (show '.' ∉ "nan".toList by decide), readDecimal_point hwhole hfraction hne]
    rfl
  unfold read readReal
  rw [String.toList_ofList, if_pos hpoint, asciiText_plain hplain, hreal]
  rfl

end Reals

end BraceLang.Numeral
