import BraceLang.Proofs.Source.Pieces
import Mathlib.Data.List.Forall2

/-!
# Quoted texts and comments in a source

Every character of a text stands in a zone: in a quoted text, in a comment, or plainly between
them. The zones are told from left to right by the marks that open and close them alone, without
words, operators or kinds of characters. What a scan passes leaves the zones as they would be
without it, so the first plain character that is foreign to the language is the one that stops the
scan.
-/

namespace BraceLang.Source

/-- Where a character of a text stands. -/
inductive Zone where
  | plain
  | quoted
  | lineComment
  | blockComment
  deriving DecidableEq, Repr

/-- The zone of each character of a text, where the text begins in a zone. -/
@[simp] def zones : Zone → List Char → List Zone
  | _, [] => []
  | .plain, '"' :: rest => .quoted :: zones .quoted rest
  | .plain, '/' :: '/' :: rest => .lineComment :: .lineComment :: zones .lineComment rest
  | .plain, '/' :: '*' :: rest => .blockComment :: .blockComment :: zones .blockComment rest
  | .plain, _ :: rest => .plain :: zones .plain rest
  | .quoted, '"' :: rest => .quoted :: zones .plain rest
  | .quoted, _ :: rest => .quoted :: zones .quoted rest
  | .lineComment, '\n' :: rest => .plain :: zones .plain rest
  | .lineComment, _ :: rest => .lineComment :: zones .lineComment rest
  | .blockComment, '*' :: '/' :: rest => .blockComment :: .blockComment :: zones .plain rest
  | .blockComment, _ :: rest => .blockComment :: zones .blockComment rest

/-- The punctuation of ASCII: what is visible and neither a letter nor a digit. -/
def isPunctuation (c : Char) : Bool :=
  32 < c.toNat && c.toNat < 127 && !c.isAlphanum

/-- A character that can stand plainly: white space, a letter, a numeral or punctuation. -/
def isKnown (c : Char) : Bool :=
  Unicode.isBlank c || Unicode.isAlphanumeric c || isPunctuation c

/-- A place of a text where a character stands plainly that cannot. -/
def IsForeignAt (text : List Char) (offset : Nat) : Prop :=
  (zones .plain text)[offset]? = some .plain ∧ ∃ c, text[offset]? = some c ∧ isKnown c = false

/-- Symbols are characters of ASCII. -/
theorem lt_of_isSymbol {c : Char} (hsymbol : isSymbol c = true) : c.toNat < 128 := by
  simp only [isSymbol, Bool.and_eq_true, Bool.or_eq_true, decide_eq_true_eq] at hsymbol
  omega

/-- Punctuation is a symbol, the double quote or the underscore. -/
theorem isPunctuation_eq (c : Char) : isPunctuation c = (isSymbol c || c == '"' || c == '_') := by
  by_cases hascii : c.toNat < 128
  · have hall : ∀ code < 128, isPunctuation (.ofNat code) =
        (isSymbol (.ofNat code) || Char.ofNat code == '"' || Char.ofNat code == '_') := by
      decide +kernel
    simpa only [Char.ofNat_toNat] using hall c.toNat hascii
  · have hbeyond : ¬c.toNat < 127 := by omega
    have hpunctuation : isPunctuation c = false := by simp [isPunctuation, hbeyond]
    have hsymbol : isSymbol c = false :=
      Bool.eq_false_iff.mpr fun htrue => hascii (lt_of_isSymbol htrue)
    have hquote : c ≠ '"' := by
      rintro rfl
      exact hascii (by decide)
    have hunderscore : c ≠ '_' := by
      rintro rfl
      exact hascii (by decide)
    simp [hpunctuation, hsymbol, hquote, hunderscore]

/-- Characters of words are known. -/
theorem isKnown_of_isWordChar {c : Char} (hword : isWordChar c = true) : isKnown c = true := by
  rw [isWordChar, Bool.or_eq_true, beq_iff_eq] at hword
  rw [isKnown, isPunctuation_eq]
  rcases hword with halphanumeric | rfl
  · rw [halphanumeric, Bool.or_true, Bool.true_or]
  · decide

/-- Symbols are known. -/
theorem isKnown_of_isSymbol {c : Char} (hsymbol : isSymbol c = true) : isKnown c = true := by
  simp [isKnown, isPunctuation_eq, hsymbol]

/-- A character of which no piece is made is not known. -/
theorem isKnown_eq_false {c : Char} (hblank : Unicode.isBlank c = false)
    (hword : isWordChar c = false) (hsymbol : isSymbol c = false) (hquote : c ≠ '"') :
    isKnown c = false := by
  rw [isWordChar, Bool.or_eq_false_iff, beq_eq_false_iff_ne] at hword
  simp [isKnown, isPunctuation_eq, hblank, hword.1, hword.2, hsymbol, hquote]

/-- A character that opens nothing stands plainly. -/
theorem zones_plain_cons {c : Char} (hquote : c ≠ '"') (hslash : c ≠ '/') (rest : List Char) :
    zones .plain (c :: rest) = .plain :: zones .plain rest := by
  rw [zones]
  · exact hquote
  · exact fun _ heq _ => hslash heq
  · exact fun _ heq _ => hslash heq

/-- A quoted text goes on past other characters than the quote. -/
theorem zones_quoted_cons {c : Char} (hquote : c ≠ '"') (rest : List Char) :
    zones .quoted (c :: rest) = .quoted :: zones .quoted rest := by
  rw [zones]
  exact hquote

/-- A comment on a line goes on past other characters than the line feed. -/
theorem zones_lineComment_cons {c : Char} (hfeed : c ≠ '\n') (rest : List Char) :
    zones .lineComment (c :: rest) = .lineComment :: zones .lineComment rest := by
  rw [zones]
  exact hfeed

/-- A comment in marks goes on where its end does not begin. -/
theorem zones_blockComment_cons {c : Char} {rest : List Char}
    (hend : ¬['*', '/'] <+: c :: rest) :
    zones .blockComment (c :: rest) = .blockComment :: zones .blockComment rest := by
  rw [zones]
  rintro behind rfl rfl
  exact hend ⟨behind, rfl⟩

/-- A comment on a line ends in front of a line feed or with the text. -/
theorem zones_lineComment_end {after : List Char} (hfeed : ∀ c ∈ after.head?, c = '\n') :
    zones .lineComment after = zones .plain after := by
  cases after with
  | nil => rfl
  | cons c rest =>
    obtain rfl : c = '\n' := hfeed c rfl
    rw [zones_plain_cons (by decide) (by decide), zones]

/-- A slash that is alone stands plainly. -/
theorem zones_slash {rest : List Char} (halone : IsAlone '/' rest) :
    zones .plain ('/' :: rest) = .plain :: zones .plain rest := by
  cases rest with
  | nil => rfl
  | cons c behind =>
    obtain ⟨-, hother⟩ := halone c rfl
    rw [zones]
    · exact fun hquote => absurd hquote (by decide)
    · intro rest _ hrest
      obtain ⟨rfl, -⟩ := List.cons.inj hrest
      exact hother ⟨rfl, .inl rfl⟩
    · intro rest _ hrest
      obtain ⟨rfl, -⟩ := List.cons.inj hrest
      exact hother ⟨rfl, .inr rfl⟩

/-- A text leads from a zone to a zone before another text, and every character of it that stands
plainly is known. -/
def Leads (first : Zone) (text : List Char) (last : Zone) (after : List Char) : Prop :=
  ∃ inside, zones first (text ++ after) = inside ++ zones last after ∧
    List.Forall₂ (fun c zone => zone = .plain → isKnown c = true) text inside

/-- An empty text leads to the zone that it begins in. -/
theorem Leads.nil (zone : Zone) (after : List Char) : Leads zone [] zone after :=
  ⟨[], rfl, .nil⟩

/-- A text and what stands behind it lead where they lead one after the other. -/
theorem Leads.append {first middle last : Zone} {text more after : List Char}
    (htext : Leads first text middle (more ++ after)) (hmore : Leads middle more last after) :
    Leads first (text ++ more) last after := by
  obtain ⟨inside, hzones, hknown⟩ := htext
  obtain ⟨others, hlater, hothers⟩ := hmore
  refine ⟨inside ++ others, ?_, List.rel_append hknown hothers⟩
  rw [List.append_assoc, hzones, hlater, List.append_assoc]

/-- A text stays in a zone if each character of it does. -/
theorem zones_stays {zone : Zone} {text : List Char} (after : List Char)
    (hstays : ∀ c ∈ text, ∀ rest, zones zone (c :: rest) = zone :: zones zone rest) :
    zones zone (text ++ after) = List.replicate text.length zone ++ zones zone after := by
  induction text with
  | nil => rfl
  | cons c rest ih =>
    rw [List.cons_append, hstays c List.mem_cons_self, ih fun d hmem =>
      hstays d (List.mem_cons_of_mem _ hmem)]
    rfl

/-- Characters that open nothing stand plainly. -/
theorem zones_plain_append {text : List Char} (after : List Char)
    (htext : ∀ c ∈ text, c ≠ '"' ∧ c ≠ '/') :
    zones .plain (text ++ after) = List.replicate text.length .plain ++ zones .plain after :=
  zones_stays after fun c hmem => zones_plain_cons (htext c hmem).1 (htext c hmem).2

/-- A comment in marks lasts to its first end. -/
theorem zones_blockComment_append {body : List Char} (after : List Char)
    (hfirst : ¬['*', '/'] <:+: body ++ ['*']) :
    zones .blockComment (body ++ '*' :: '/' :: after) =
      List.replicate body.length .blockComment ++ zones .blockComment ('*' :: '/' :: after) := by
  induction body with
  | nil => rfl
  | cons c rest ih =>
    have hend : ¬['*', '/'] <+: c :: (rest ++ '*' :: '/' :: after) := by
      intro hprefix
      obtain ⟨rfl, hslash⟩ := List.cons_prefix_cons.mp hprefix
      cases rest with
      | nil => simp at hslash
      | cons d more =>
        obtain ⟨rfl, -⟩ := List.cons_prefix_cons.mp hslash
        exact hfirst (List.IsPrefix.isInfix ⟨more ++ ['*'], rfl⟩)
    rw [List.cons_append, zones_blockComment_cons hend,
      ih fun hinside => hfirst (List.infix_cons hinside)]
    rfl

/-- What holds of the characters of each of the eight operators holds of those of any. -/
@[elab_as_elim]
theorem of_isOperator {motive : Char → Char → Prop} {first second : Char}
    (hoperator : isOperator first second = true)
    (hall : ∀ pair ∈ [('=', '='), ('!', '='), ('>', '='), ('<', '='), ('-', '>'), ('&', '&'),
      ('|', '|'), (':', ':')], motive pair.1 pair.2) : motive first second := by
  unfold isOperator at hoperator
  split at hoperator
  case h_9 => cases hoperator
  all_goals exact hall (_, _) (by decide)

/-- Both characters of an operator are known and open nothing. -/
theorem plain_of_isOperator {first second : Char} (hoperator : isOperator first second = true) :
    ∀ c ∈ [first, second], c ≠ '"' ∧ c ≠ '/' ∧ isKnown c = true := by
  rw [List.forall_mem_cons, List.forall_mem_singleton]
  exact of_isOperator hoperator (by decide)

/-- A character of a word is known and opens nothing. -/
theorem plain_of_isWordChar {c : Char} (hword : isWordChar c = true) :
    c ≠ '"' ∧ c ≠ '/' ∧ isKnown c = true := by
  refine ⟨?_, ?_, isKnown_of_isWordChar hword⟩
  · rintro rfl
    exact absurd hword (by decide)
  · rintro rfl
    exact absurd hword (by decide)

/-- The zone that all of a piece stands in. -/
def Piece.zone : Piece → Zone
  | .blank _ | .word _ | .operator _ _ | .symbol _ => .plain
  | .lineComment _ => .lineComment
  | .blockComment _ => .blockComment
  | .quoted _ => .quoted

/-- The characters of a word are known and open nothing. -/
theorem IsWord.plain_of_mem {text : List Char} (hword : IsWord text) :
    ∀ c ∈ text, c ≠ '"' ∧ c ≠ '/' ∧ isKnown c = true := by
  intro c hmem
  cases hword with
  | plain _ htext => exact plain_of_isWordChar (htext c hmem)
  | @pointed whole digit more hwhole hdigit hmore =>
    have hdigits : ∀ d ∈ digit :: more, isWordChar d = true :=
      List.forall_mem_cons.mpr ⟨isWordChar_of_isDigit hdigit, hmore⟩
    rcases List.mem_append.mp hmem with hfront | hback
    · exact plain_of_isWordChar (isWordChar_of_isDigit (hwhole c hfront))
    · rcases List.mem_cons.mp hback with rfl | hfraction
      · decide
      · exact plain_of_isWordChar (hdigits c hfraction)

/-- A piece stands in its zone, and behind it the text is plain. -/
theorem Piece.Precedes.zones_eq {piece : Piece} {after : List Char}
    (hpiece : piece.Precedes after) :
    zones .plain (piece.text ++ after) =
      List.replicate piece.text.length piece.zone ++ zones .plain after := by
  cases hpiece with
  | @blank c after hblank =>
    refine zones_plain_append after fun d hmem => ?_
    obtain rfl : d = c := List.mem_singleton.mp hmem
    constructor
    · rintro rfl
      exact absurd hblank (by decide)
    · rintro rfl
      exact absurd hblank (by decide)
  | @lineComment body after hbody hfeed =>
    have hstays : ∀ c ∈ body, ∀ rest, zones .lineComment (c :: rest) =
        .lineComment :: zones .lineComment rest :=
      fun c hmem => zones_lineComment_cons (by rintro rfl; exact hbody hmem)
    rw [Piece.text, List.cons_append, List.cons_append, zones, zones_stays after hstays,
      zones_lineComment_end hfeed]
    rfl
  | @blockComment body after hfirst =>
    have hlength : (Piece.blockComment body).text.length = body.length + 2 + 1 + 1 := by
      simp [Piece.text]
    rw [hlength, List.replicate_succ, List.replicate_succ, ← List.replicate_append_replicate,
      Piece.text, List.cons_append, List.cons_append, zones, List.append_assoc, List.cons_append,
      List.singleton_append, zones_blockComment_append after hfirst, zones]
    simp [Piece.zone]
  | word hword _ =>
    exact zones_plain_append _ fun c hmem =>
      ⟨(hword.plain_of_mem c hmem).1, (hword.plain_of_mem c hmem).2.1⟩
  | @quoted body after hbody =>
    have hstays : ∀ c ∈ body, ∀ rest, zones .quoted (c :: rest) = .quoted :: zones .quoted rest :=
      fun c hmem => zones_quoted_cons (by rintro rfl; exact hbody hmem)
    have hlength : (Piece.quoted body).text.length = body.length + 1 + 1 := by
      simp [Piece.text]
    rw [hlength, List.replicate_succ, List.replicate_succ', Piece.text, List.cons_append, zones,
      List.append_assoc, List.singleton_append, zones_stays _ hstays, zones]
    simp [Piece.zone]
  | operator hoperator =>
    exact zones_plain_append _ fun c hmem =>
      ⟨(plain_of_isOperator hoperator c hmem).1, (plain_of_isOperator hoperator c hmem).2.1⟩
  | @symbol c after hsymbol halone =>
    by_cases hslash : c = '/'
    · subst hslash
      exact zones_slash halone
    · refine zones_plain_append after fun d hmem => ?_
      obtain rfl : d = c := List.mem_singleton.mp hmem
      refine ⟨?_, hslash⟩
      rintro rfl
      exact absurd hsymbol (by decide)

/-- What stands plainly in a piece is known. -/
theorem Piece.Precedes.isKnown_of_mem {piece : Piece} {after : List Char}
    (hpiece : piece.Precedes after) (hzone : piece.zone = .plain) :
    ∀ c ∈ piece.text, isKnown c = true := by
  cases hpiece with
  | @blank c _ hblank =>
    intro d hmem
    obtain rfl : d = c := List.mem_singleton.mp hmem
    simp [isKnown, hblank]
  | word hword _ => exact fun c hmem => (hword.plain_of_mem c hmem).2.2
  | operator hoperator => exact fun c hmem => (plain_of_isOperator hoperator c hmem).2.2
  | @symbol c _ hsymbol _ =>
    intro d hmem
    obtain rfl : d = c := List.mem_singleton.mp hmem
    exact isKnown_of_isSymbol hsymbol
  | lineComment _ _ | blockComment _ | quoted _ => cases hzone

/-- What a piece is made of stands in its zone, and behind it the text is plain. -/
theorem Piece.Precedes.leads {piece : Piece} {after : List Char} (hpiece : piece.Precedes after) :
    Leads .plain piece.text .plain after := by
  refine ⟨_, hpiece.zones_eq, List.forall₂_iff_get.mpr ⟨by simp, fun index hindex _ hplain => ?_⟩⟩
  rw [List.get_eq_getElem, List.getElem_replicate] at hplain
  exact hpiece.isKnown_of_mem hplain _ (List.get_mem _ _)

/-- What a scan passes leaves the text behind it plain. -/
theorem Scan.Reads.leads {scan : Scan} {text : List Char} (hscan : scan.Reads text) :
    Leads .plain (textOf scan.pieces) .plain scan.rest := by
  induction hscan with
  | ended => exact .nil .plain []
  | halted _ => exact .nil .plain _
  | @piece piece scan after hpiece hscan ih =>
    have hfirst := hpiece.leads
    rw [hscan.text_eq] at hfirst
    exact hfirst.append ih

/-- Nothing that is passed is foreign. -/
theorem Leads.not_isForeignAt {text after : List Char} {offset : Nat}
    (htext : Leads .plain text .plain after) (hinside : offset < text.length) :
    ¬IsForeignAt (text ++ after) offset := by
  obtain ⟨inside, hzones, hknown⟩ := htext
  rintro ⟨hplain, c, hchar, hforeign⟩
  have hlength : offset < inside.length := hknown.length_eq ▸ hinside
  rw [hzones, List.getElem?_append_left hlength, List.getElem?_eq_getElem hlength] at hplain
  rw [List.getElem?_append_left hinside, List.getElem?_eq_getElem hinside] at hchar
  have htrue := hknown.get hinside hlength (Option.some.inj hplain)
  rw [List.get_eq_getElem, Option.some.inj hchar, hforeign] at htrue
  cases htrue

/-- Behind what is passed, a character is foreign where it is without what is passed. -/
theorem Leads.isForeignAt_append {text after : List Char} (htext : Leads .plain text .plain after)
    (offset : Nat) : IsForeignAt (text ++ after) (text.length + offset) ↔
      IsForeignAt after offset := by
  obtain ⟨inside, hzones, hknown⟩ := htext
  have hchar : (text ++ after)[text.length + offset]? = after[offset]? := by
    rw [List.getElem?_append_right (Nat.le_add_right _ _), Nat.add_sub_cancel_left]
  have hzone : (zones .plain (text ++ after))[text.length + offset]? =
      (zones .plain after)[offset]? := by
    rw [hzones, hknown.length_eq, List.getElem?_append_right (Nat.le_add_right _ _),
      Nat.add_sub_cancel_left]
  rw [IsForeignAt, IsForeignAt, hchar, hzone]

/-- An invalid character is foreign. -/
theorem Fault.Opens.isForeignAt {c : Char} {text : List Char}
    (hfault : (Fault.invalidCharacter c).Opens text) : IsForeignAt text 0 := by
  cases hfault with
  | invalidCharacter hblank hword hsymbol hquote =>
    have hslash : c ≠ '/' := by
      rintro rfl
      exact absurd hsymbol (by decide)
    refine ⟨?_, c, rfl, isKnown_eq_false hblank hword hsymbol hquote⟩
    rw [zones_plain_cons hquote hslash]
    rfl

end BraceLang.Source
