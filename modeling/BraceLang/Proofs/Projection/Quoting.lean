import BraceLang.Text.Quoted

/-!
# Reading quoted text

Each character of a text is written between quotes in a form that tells where it ends, and none of
these forms begins with the quote. So a quoted text is read back character by character up to its
end, whatever stands behind it.
-/

namespace BraceLang.Text

/-- The value of a hexadecimal digit, in small letters. -/
def digitValue (c : Char) : Nat :=
  if c.toNat < 'a'.toNat then c.toNat - '0'.toNat else c.toNat - 'a'.toNat + 10

/-- The number that a row of hexadecimal digits stands for. -/
def hexValue (digits : List Char) : Nat :=
  digits.foldl (fun value c => 16 * value + digitValue c) 0

/-- The first character of a text that is written between quotes, and what stands behind it. -/
def readEscaped : List Char → Option (Char × List Char)
  | '\\' :: 'n' :: rest => some ('\n', rest)
  | '\\' :: 'r' :: rest => some ('\r', rest)
  | '\\' :: 't' :: rest => some ('\t', rest)
  | '\\' :: 'x' :: rest => some (.ofNat (hexValue (rest.take 2)), rest.drop 2)
  | '\\' :: 'u' :: rest => some (.ofNat (hexValue (rest.take 4)), rest.drop 4)
  | '\\' :: 'U' :: rest => some (.ofNat (hexValue (rest.take 8)), rest.drop 8)
  | '\\' :: c :: rest => some (c, rest)
  | c :: rest => some (c, rest)
  | [] => none

section Digits

variable (width number : Nat)

/-- The digits of a number have the width that they are written with. -/
theorem length_hexDigits : (hexDigits width number).length = width := by
  simp [hexDigits]

/-- The last digit stands behind those of the number without it. -/
theorem hexDigits_succ :
    hexDigits (width + 1) number =
      hexDigits width (number / 16) ++ [Nat.digitChar (number % 16)] := by
  have hplaces (place : Nat) : number / 16 ^ (place + 1) = number / 16 / 16 ^ place := by
    rw [Nat.div_div_eq_div_mul, Nat.pow_succ']
  simp [hexDigits, List.range_succ_eq_map, Function.comp_def, hplaces]

/-- A digit has the value that it is written for. -/
theorem digitValue_digitChar {digit : Nat} (hdigit : digit < 16) :
    digitValue digit.digitChar = digit := by
  revert digit
  decide

/-- The digits of a number stand for it, as far as they are wide enough. -/
theorem hexValue_hexDigits : hexValue (hexDigits width number) = number % Nat.pow 16 width := by
  induction width generalizing number with
  | zero => simp [hexDigits, hexValue, Nat.mod_one]
  | succ width ih =>
    have hfront := ih (number / 16)
    have hlast := digitValue_digitChar (Nat.mod_lt number (by decide : 16 > 0))
    rw [hexDigits_succ, hexValue, List.foldl_append, ← hexValue, hfront]
    rw [List.foldl_cons, List.foldl_nil, hlast, Nat.pow_eq, Nat.pow_eq, Nat.pow_succ', Nat.mod_mul,
      Nat.add_comm]

end Digits

section Characters

variable {quote : Char}

/-- A character is read from its number. -/
theorem readEscaped_codeEscape (c : Char) (rest : List Char) :
    readEscaped (codeEscape c.toNat ++ rest) = some (c, rest) := by
  have hcode : c.toNat < Nat.pow 16 8 := c.val.toBitVec.isLt
  have hread {width : Nat} (hwidth : c.toNat < Nat.pow 16 width) :
      Char.ofNat (hexValue ((hexDigits width c.toNat ++ rest).take width)) = c ∧
        (hexDigits width c.toNat ++ rest).drop width = rest := by
    have hlength := length_hexDigits width c.toNat
    rw [List.take_left' hlength, List.drop_left' hlength, hexValue_hexDigits,
      Nat.mod_eq_of_lt hwidth, Char.ofNat_toNat]
    exact ⟨rfl, rfl⟩
  unfold codeEscape
  split
  · next hshort =>
    obtain ⟨hvalue, hrest⟩ := @hread 2 hshort
    simp [readEscaped, hvalue, hrest]
  · split
    · next hmiddle =>
      obtain ⟨hvalue, hrest⟩ := @hread 4 hmiddle
      simp [readEscaped, hvalue, hrest]
    · obtain ⟨hvalue, hrest⟩ := hread hcode
      simp [readEscaped, hvalue, hrest]

/-- A character is read from the form that it is written in. -/
theorem readEscaped_escaped (hquote : quote = '\'' ∨ quote = '"') (c : Char) (rest : List Char) :
    readEscaped (escaped quote c ++ rest) = some (c, rest) := by
  unfold escaped
  split
  · next hbackslash =>
    rcases hquote with rfl | rfl <;> rcases hbackslash with rfl | rfl <;> rfl
  next hplain =>
  split
  · next hfeed => rw [hfeed]; rfl
  split
  · next hreturn => rw [hreturn]; rfl
  split
  · next htab => rw [htab]; rfl
  split
  · have hother : c ≠ '\\' := fun hc => hplain (.inr hc)
    simp [readEscaped, hother]
  · exact readEscaped_codeEscape c rest

/-- No character is written in a form that begins with the quote. -/
theorem head_escaped (hquote : quote ≠ '\\') (c : Char) :
    ∃ first more, escaped quote c = first :: more ∧ first ≠ quote := by
  have hescape (more : List Char) :
      ∃ first rest, '\\' :: more = first :: rest ∧ first ≠ quote := ⟨_, _, rfl, hquote.symm⟩
  unfold escaped codeEscape
  split
  · exact hescape _
  next hplain =>
  have hother : c ≠ quote := fun hc => hplain (.inl hc)
  repeat' split
  all_goals first | exact hescape _ | exact ⟨c, [], rfl, hother⟩

end Characters

/-- A text and its end are known from how the text is written up to the quote behind it. -/
theorem flatMap_escaped_cancel {quote : Char} (hquote : quote = '\'' ∨ quote = '"')
    {text other rest tail : List Char}
    (hsame : text.flatMap (escaped quote) ++ quote :: rest =
      other.flatMap (escaped quote) ++ quote :: tail) : text = other ∧ rest = tail := by
  have hbackslash : quote ≠ '\\' := by rcases hquote with rfl | rfl <;> decide
  induction text generalizing other with
  | nil =>
    cases other with
    | nil => exact ⟨rfl, (List.cons.inj hsame).2⟩
    | cons d ds =>
      obtain ⟨first, more, hfirst, hne⟩ := head_escaped hbackslash d
      rw [List.flatMap_cons, hfirst] at hsame
      exact absurd (List.cons.inj hsame).1.symm hne
  | cons c cs ih =>
    cases other with
    | nil =>
      obtain ⟨first, more, hfirst, hne⟩ := head_escaped hbackslash c
      rw [List.flatMap_cons, hfirst] at hsame
      exact absurd (List.cons.inj hsame).1 hne
    | cons d ds =>
      rw [List.flatMap_cons, List.flatMap_cons, List.append_assoc, List.append_assoc] at hsame
      have hread := congrArg readEscaped hsame
      rw [readEscaped_escaped hquote, readEscaped_escaped hquote] at hread
      obtain ⟨rfl, hrest⟩ := Prod.mk.inj (Option.some.inj hread)
      obtain ⟨rfl, htail⟩ := ih hrest
      exact ⟨rfl, htail⟩

/-- Texts are put between quotes of one of two forms. -/
theorem quoteFor_eq (text : List Char) : quoteFor text = '\'' ∨ quoteFor text = '"' := by
  unfold quoteFor
  split
  · exact .inr rfl
  · exact .inl rfl

/-- A quoted text tells which text it is, and what stands behind it. -/
theorem quotedChars_cancel {text other rest tail : List Char}
    (hsame : quotedChars text ++ rest = quotedChars other ++ tail) :
    text = other ∧ rest = tail := by
  simp only [quotedChars, List.cons_append, List.append_assoc, List.nil_append,
    List.cons.injEq] at hsame
  obtain ⟨hquote, hbody⟩ := hsame
  rw [← hquote] at hbody
  exact flatMap_escaped_cancel (quoteFor_eq text) hbody

end BraceLang.Text
