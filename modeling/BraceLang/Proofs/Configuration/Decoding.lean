import BraceLang.Text.Utf8

/-!
# Texts and their bytes

Bytes are decoded exactly if they are those of a text, and then to that text. A character has one to
four bytes; how many there are and within which bounds the second one lies is what its first byte
tells, and no other bytes are taken for a character.
-/

namespace BraceLang.Text

/-- The bytes of a character. -/
def bytesOf (c : Char) : List Nat := (String.utf8EncodeChar c).map UInt8.toNat

/-- The bytes of a text. -/
def encodeUtf8 (text : List Char) : List Nat := text.flatMap bytesOf

/-- The bytes of a code point. -/
def bytesOfCode (code : Nat) : List Nat :=
  if code < 0x80 then [code]
  else if code < 0x800 then [0xC0 + code / 64, 0x80 + code % 64]
  else if code < 0x10000 then [0xE0 + code / 4096, 0x80 + code / 64 % 64, 0x80 + code % 64]
  else [0xF0 + code / 262144, 0x80 + code / 4096 % 64, 0x80 + code / 64 % 64, 0x80 + code % 64]

/-- The bytes of a character are those of its code point. -/
theorem bytesOf_eq (c : Char) : bytesOf c = bytesOfCode c.toNat := by
  have hvalid : c.toNat < 0xD800 ∨ 0xDFFF < c.toNat ∧ c.toNat < 0x110000 := c.valid
  have hbyte {value : Nat} (hvalue : value < 256) : (UInt8.ofNat value).toNat = value := by
    simpa using hvalue
  unfold bytesOf bytesOfCode String.utf8EncodeChar
  rw [show c.val.toNat = c.toNat from rfl]
  generalize c.toNat = code at hvalid
  grind

/-- The bytes that are taken for the character of a code point. -/
inductive Sequence : Nat → List Nat → Prop
  | one {a : Nat} : a < 0x80 → Sequence a [a]
  /-- What fits into one byte has no second form. -/
  | two {a b : Nat} : 2 ≤ a → a < 32 → b < 64 → Sequence (64 * a + b) [0xC0 + a, 0x80 + b]
  /-- What fits into two bytes has no third form, and a surrogate has none. -/
  | three {a b c : Nat} : a < 16 → b < 64 → c < 64 → (a = 0 → 32 ≤ b) → (a = 13 → b < 32) →
    Sequence (64 * (64 * a + b) + c) [0xE0 + a, 0x80 + b, 0x80 + c]
  /-- What fits into three bytes has no fourth form, and what is no code point has none. -/
  | four {a b c d : Nat} : a < 5 → b < 64 → c < 64 → d < 64 → (a = 0 → 16 ≤ b) → (a = 4 → b < 16) →
    Sequence (64 * (64 * (64 * a + b) + c) + d) [0xF0 + a, 0x80 + b, 0x80 + c, 0x80 + d]

/-- Characters are taken from their bytes, and from no others. -/
theorem sequence_iff {code : Nat} {bytes : List Nat} :
    Sequence code bytes ↔ code.isValidChar ∧ bytes = bytesOfCode code := by
  unfold Nat.isValidChar bytesOfCode
  constructor
  · intro hsequence
    cases hsequence with
    | one | two | three | four => grind
  · rintro ⟨hvalid, rfl⟩
    by_cases hone : code < 0x80
    · rw [if_pos hone]
      exact .one hone
    rw [if_neg hone]
    by_cases htwo : code < 0x800
    · have hcode : 64 * (code / 64) + code % 64 = code := by omega
      have hsequence : Sequence _ [0xC0 + code / 64, 0x80 + code % 64] :=
        .two (by omega) (by omega) (by omega)
      rw [hcode] at hsequence
      rwa [if_pos htwo]
    rw [if_neg htwo]
    by_cases hthree : code < 0x10000
    · have hcode : 64 * (64 * (code / 4096) + code / 64 % 64) + code % 64 = code := by omega
      have hsequence : Sequence _ [0xE0 + code / 4096, 0x80 + code / 64 % 64, 0x80 + code % 64] :=
        .three (by omega) (by omega) (by omega) (by omega) (by omega)
      rw [hcode] at hsequence
      rwa [if_pos hthree]
    · have hcode : 64 * (64 * (64 * (code / 262144) + code / 4096 % 64) + code / 64 % 64) +
          code % 64 = code := by omega
      have hsequence : Sequence _ [0xF0 + code / 262144, 0x80 + code / 4096 % 64,
          0x80 + code / 64 % 64, 0x80 + code % 64] :=
        .four (by omega) (by omega) (by omega) (by omega) (by omega) (by omega)
      rw [hcode] at hsequence
      rwa [if_neg hthree]

/-- A character is taken from its bytes. -/
theorem sequence_of_char (c : Char) : Sequence c.toNat (bytesOf c) :=
  sequence_iff.mpr ⟨c.valid, bytesOf_eq c⟩

namespace Sequence

variable {code : Nat} {bytes : List Nat} (hsequence : Sequence code bytes)
include hsequence

/-- What is taken for a character has a byte at least. -/
theorem length_pos : 0 < bytes.length := by
  cases hsequence <;> exact Nat.succ_pos _

/-- What is taken for a character has its bytes. -/
theorem eq_bytesOf : bytes = bytesOf (Char.ofNat code) := by
  obtain ⟨hvalid, hbytes⟩ := sequence_iff.mp hsequence
  have hcode : (Char.ofNat code).toNat = code := by
    rw [Char.ofNat, dif_pos hvalid]
    rfl
  rw [bytesOf_eq, hcode, hbytes]

end Sequence

/-- A text has no more characters than bytes. -/
theorem length_le_length_encodeUtf8 (text : List Char) :
    text.length ≤ (encodeUtf8 text).length := by
  induction text with
  | nil => exact Nat.le_refl 0
  | cons c rest ih =>
    have hpositive := (sequence_of_char c).length_pos
    rw [encodeUtf8, List.flatMap_cons, ← encodeUtf8, List.length_append, List.length_cons]
    omega

/-- A first byte of two. -/
theorem leadOf_two {a : Nat} (hleast : 2 ≤ a) (ha : a < 32) :
    leadOf (0xC0 + a) = some (a, 0x80, 0xBF, 1) := by
  unfold leadOf
  grind

/-- A first byte of three. -/
theorem leadOf_three {a : Nat} (ha : a < 16) :
    leadOf (0xE0 + a) =
      some (a, if a = 0 then 0xA0 else 0x80, if a = 13 then 0x9F else 0xBF, 2) := by
  unfold leadOf
  grind

/-- A first byte of four. -/
theorem leadOf_four {a : Nat} (ha : a < 5) :
    leadOf (0xF0 + a) =
      some (a, if a = 0 then 0x90 else 0x80, if a = 4 then 0x8F else 0xBF, 3) := by
  unfold leadOf
  grind

/-- The first character is decoded from its bytes, whatever is behind them. -/
theorem decodeFrom_sequence {code : Nat} {bytes : List Nat} (hsequence : Sequence code bytes)
    (count position : Nat) (rest : List Nat) :
    decodeFrom (count + 1) position (bytes ++ rest) =
      (decodeFrom count (position + bytes.length) rest).map (Char.ofNat code :: ·) := by
  cases hsequence with
  | one ha => exact if_pos ha
  | two hleast ha hb =>
    simp only [List.cons_append, List.nil_append, decodeFrom, leadOf_two hleast ha, continued]
    rw [if_neg (by omega), if_pos (by omega)]
    simp
  | three ha hb hc hleast hsurrogate =>
    simp only [List.cons_append, List.nil_append, decodeFrom, leadOf_three ha, continued]
    rw [if_neg (by omega), if_pos (by grind), if_pos (by omega)]
    simp
  | four ha hb hc hd hleast hgreatest =>
    simp only [List.cons_append, List.nil_append, decodeFrom, leadOf_four ha, continued]
    rw [if_neg (by omega), if_pos (by grind), if_pos (by omega), if_pos (by omega)]
    simp

/-- A byte that is read behind others lies between the bounds. -/
theorem exists_cons_of_continued {bits low high seen count : Nat} {rest after : List Nat}
    {code : Nat} (hcontinued : continued bits low high seen (count + 1) rest = .ok (code, after)) :
    ∃ byte behind, rest = byte :: behind ∧ low ≤ byte ∧ byte ≤ high ∧
      continued (64 * bits + (byte - 0x80)) 0x80 0xBF (seen + 1) count behind =
        .ok (code, after) := by
  cases rest with
  | nil => cases hcontinued
  | cons byte behind =>
    unfold continued at hcontinued
    split at hcontinued
    · next hbyte => exact ⟨byte, behind, rfl, hbyte.1, hbyte.2, hcontinued⟩
    · cases hcontinued

/-- No other byte is the first of more than one. -/
theorem leadOf_cases {byte : Nat} {lead : Nat × Nat × Nat × Nat} (hlead : leadOf byte = some lead) :
    (∃ a, byte = 0xC0 + a ∧ 2 ≤ a ∧ a < 32) ∨ (∃ a, byte = 0xE0 + a ∧ a < 16) ∨
      ∃ a, byte = 0xF0 + a ∧ a < 5 := by
  by_cases hleast : byte < 0xC2
  · rw [leadOf, if_pos hleast] at hlead
    cases hlead
  by_cases hgreatest : 0xF4 < byte
  · unfold leadOf at hlead
    grind
  by_cases htwo : byte < 0xE0
  · exact .inl ⟨byte - 0xC0, by omega⟩
  by_cases hthree : byte < 0xF0
  · exact .inr (.inl ⟨byte - 0xE0, by omega⟩)
  · exact .inr (.inr ⟨byte - 0xF0, by omega⟩)

/-- What is read behind a first byte makes up the bytes of a character with it. -/
theorem exists_sequence_of_continued {byte bits low high more code : Nat} {rest after : List Nat}
    (hlead : leadOf byte = some (bits, low, high, more))
    (hcontinued : continued bits low high 1 more rest = .ok (code, after)) :
    ∃ bytes, Sequence code bytes ∧ byte :: rest = bytes ++ after ∧ bytes.length = 1 + more := by
  rcases leadOf_cases hlead with ⟨a, rfl, hleast, ha⟩ | ⟨a, rfl, ha⟩ | ⟨a, rfl, ha⟩
  · rw [leadOf_two hleast ha] at hlead
    cases hlead
    obtain ⟨second, behind, rfl, hlow, hhigh, hcontinued⟩ := exists_cons_of_continued hcontinued
    obtain ⟨rfl, rfl⟩ := Prod.mk.inj (Except.ok.inj hcontinued)
    obtain ⟨b, rfl⟩ := Nat.exists_eq_add_of_le hlow
    rw [Nat.add_sub_cancel_left]
    exact ⟨_, .two hleast ha (by omega), rfl, rfl⟩
  · rw [leadOf_three ha] at hlead
    cases hlead
    obtain ⟨second, behind, rfl, hlow, hhigh, hcontinued⟩ := exists_cons_of_continued hcontinued
    obtain ⟨third, behind, rfl, hthird, hlast, hcontinued⟩ := exists_cons_of_continued hcontinued
    obtain ⟨rfl, rfl⟩ := Prod.mk.inj (Except.ok.inj hcontinued)
    obtain ⟨b, rfl⟩ := Nat.exists_eq_add_of_le (show 0x80 ≤ second by grind)
    obtain ⟨c, rfl⟩ := Nat.exists_eq_add_of_le hthird
    rw [Nat.add_sub_cancel_left, Nat.add_sub_cancel_left]
    exact ⟨_, .three ha (by grind) (by omega) (by grind) (by grind), rfl, rfl⟩
  · rw [leadOf_four ha] at hlead
    cases hlead
    obtain ⟨second, behind, rfl, hlow, hhigh, hcontinued⟩ := exists_cons_of_continued hcontinued
    obtain ⟨third, behind, rfl, hthird, hlater, hcontinued⟩ := exists_cons_of_continued hcontinued
    obtain ⟨fourth, behind, rfl, hfourth, hlast, hcontinued⟩ := exists_cons_of_continued hcontinued
    obtain ⟨rfl, rfl⟩ := Prod.mk.inj (Except.ok.inj hcontinued)
    obtain ⟨b, rfl⟩ := Nat.exists_eq_add_of_le (show 0x80 ≤ second by grind)
    obtain ⟨c, rfl⟩ := Nat.exists_eq_add_of_le hthird
    obtain ⟨d, rfl⟩ := Nat.exists_eq_add_of_le hfourth
    rw [Nat.add_sub_cancel_left, Nat.add_sub_cancel_left, Nat.add_sub_cancel_left]
    exact ⟨_, .four ha (by grind) (by omega) (by omega) (by grind) (by grind), rfl, rfl⟩

/-- The bytes that the first character is decoded from are its own. -/
theorem exists_sequence_of_decodeFrom {count position byte : Nat} {rest : List Nat}
    {text : List Char} (hdecoded : decodeFrom (count + 1) position (byte :: rest) = .ok text) :
    ∃ code bytes behind more, Sequence code bytes ∧ byte :: rest = bytes ++ behind ∧
      text = Char.ofNat code :: more ∧
      decodeFrom count (position + bytes.length) behind = .ok more := by
  have hmap {code : Nat} {decoded : Except Utf8Error (List Char)}
      (hdecoded : decoded.map (Char.ofNat code :: ·) = .ok text) :
      ∃ more, decoded = .ok more ∧ text = Char.ofNat code :: more := by
    cases decoded with
    | error => cases hdecoded
    | ok more => exact ⟨more, rfl, (Except.ok.inj hdecoded).symm⟩
  unfold decodeFrom at hdecoded
  split at hdecoded
  · next hone =>
    obtain ⟨more, hmore, rfl⟩ := hmap hdecoded
    exact ⟨byte, [byte], rest, more, .one hone, rfl, rfl, hmore⟩
  · split at hdecoded
    · cases hdecoded
    · next bits low high more hlead =>
      split at hdecoded
      · next code after hcontinued =>
        obtain ⟨bytes, hsequence, hsplit, hlength⟩ := exists_sequence_of_continued hlead hcontinued
        obtain ⟨text, htext, rfl⟩ := hmap hdecoded
        refine ⟨code, bytes, after, text, hsequence, hsplit, rfl, ?_⟩
        rwa [hlength, ← Nat.add_assoc]
      · cases hdecoded

/-- A text is decoded from its bytes. -/
theorem decodeFrom_encodeUtf8 (text : List Char) {count : Nat} (hcount : text.length ≤ count)
    (position : Nat) : decodeFrom count position (encodeUtf8 text) = .ok text := by
  induction text generalizing count position with
  | nil => cases count <;> rfl
  | cons c rest ih =>
    cases count with
    | zero => cases hcount
    | succ count =>
      rw [encodeUtf8, List.flatMap_cons, ← encodeUtf8, decodeFrom_sequence (sequence_of_char c),
        ih (Nat.le_of_succ_le_succ hcount), Char.ofNat_toNat]
      rfl

/-- What bytes are decoded to has those bytes. -/
theorem eq_encodeUtf8_of_decodeFrom {count position : Nat} {bytes : List Nat} {text : List Char}
    (hcount : bytes.length ≤ count) (hdecoded : decodeFrom count position bytes = .ok text) :
    bytes = encodeUtf8 text := by
  induction count generalizing position bytes text with
  | zero =>
    obtain rfl := List.length_eq_zero_iff.mp (Nat.le_zero.mp hcount)
    obtain rfl := Except.ok.inj hdecoded
    rfl
  | succ count ih =>
    cases bytes with
    | nil =>
      obtain rfl := Except.ok.inj hdecoded
      rfl
    | cons byte rest =>
      obtain ⟨code, first, behind, more, hsequence, hsplit, rfl, hmore⟩ :=
        exists_sequence_of_decodeFrom hdecoded
      have hlength := congrArg List.length hsplit
      simp only [List.length_cons, List.length_append] at hlength hcount
      have hbehind := ih (by have := hsequence.length_pos; omega) hmore
      rw [hsplit, hbehind, hsequence.eq_bytesOf]
      rfl

/-- Bytes are decoded to a text exactly if they are its bytes. -/
theorem decodeUtf8_eq_ok {bytes : List Nat} {text : List Char} :
    decodeUtf8 bytes = .ok text ↔ bytes = encodeUtf8 text := by
  refine ⟨eq_encodeUtf8_of_decodeFrom (Nat.le_refl _), ?_⟩
  rintro rfl
  exact decodeFrom_encodeUtf8 text (length_le_length_encodeUtf8 text) 0

/-- No two texts have the same bytes. -/
theorem encodeUtf8_injective : Function.Injective encodeUtf8 := fun _ _ hsame =>
  Except.ok.inj ((decodeUtf8_eq_ok.mpr rfl).symm.trans (decodeUtf8_eq_ok.mpr hsame))

/-- A character of two bytes and one of three. -/
example : encodeUtf8 ['é', '√'] = [0xC3, 0xA9, 0xE2, 0x88, 0x9A] := by decide

end BraceLang.Text
