import BraceLang.Proofs.Source.LineBreaks

/-!
# Points of a source

A point with digits around it goes on a word, so as to begin a fraction. Whether the word is a
number is decided at its end and by the digits of ASCII alone. So a point may come to stand inside
of a name: where a letter follows the fraction, or where digits of another script are around the
point. Nowhere else does it: every other point that stands plainly is part of a number or a symbol
of its own.
-/

namespace BraceLang.Source

/-- A word with a point in it that is no numeral: digits, a point, a digit and more characters of
words, of which not all are digits of ASCII. -/
def IsPointedName (text : List Char) : Prop :=
  (∃ whole digit more, text = whole ++ '.' :: digit :: more ∧
    (∀ c ∈ whole, Unicode.isDigit c = true) ∧ Unicode.isDigit digit = true ∧
    ∀ c ∈ more, isWordChar c = true) ∧ ¬IsDecimal text

variable {keywords : List String} {file : String} {text after : List Char}

/-- The point is no character of words. -/
theorem isWordChar_point : isWordChar '.' = false := by decide

/-- A word consists of characters of words, or a point stands in it. -/
theorem IsWord.plain_or_pointed (hword : IsWord text) :
    (∀ c ∈ text, isWordChar c = true) ∨ ∃ whole digit more, text = whole ++ '.' :: digit :: more ∧
      (∀ c ∈ whole, Unicode.isDigit c = true) ∧ Unicode.isDigit digit = true ∧
      ∀ c ∈ more, isWordChar c = true := by
  cases hword with
  | plain _ htext => exact .inl htext
  | pointed hwhole hdigit hmore => exact .inr ⟨_, _, _, rfl, hwhole, hdigit, hmore⟩

/-- A name with a point in it is a word. -/
theorem IsPointedName.isWord (hname : IsPointedName text) : IsWord text := by
  obtain ⟨⟨whole, digit, more, rfl, hwhole, hdigit, hmore⟩, -⟩ := hname
  exact .pointed hwhole hdigit hmore

/-- There is a point in it. -/
theorem IsPointedName.point_mem (hname : IsPointedName text) : '.' ∈ text := by
  obtain ⟨⟨whole, digit, more, rfl, -⟩, -⟩ := hname
  exact List.mem_append_right whole List.mem_cons_self

section Spelled

variable {lexeme : Lexeme}

/-- A keyword consists of characters of words, if no point stands in any of them. -/
theorem Spells.keyword_chars (hspells : Spells keywords text lexeme)
    (hkeywords : ∀ word ∈ keywords, '.' ∉ word.toList) (hkind : lexeme.kind = .keyword) :
    ∀ c ∈ lexeme.text.toList, isWordChar c = true := by
  cases hspells with
  | keyword hword hmem =>
    have hpoint := hkeywords _ hmem
    rw [String.toList_ofList] at hpoint ⊢
    rcases hword.plain_or_pointed with hplain | ⟨whole, digit, more, rfl, -⟩
    · exact hplain
    · exact absurd (List.mem_append_right whole List.mem_cons_self) hpoint
  | _ => cases hkind

/-- An identifier consists of characters of words, or it is a name with a point in it. -/
theorem Spells.identifier_chars (hspells : Spells keywords text lexeme)
    (hkind : lexeme.kind = .identifier) :
    (∀ c ∈ lexeme.text.toList, isWordChar c = true) ∨ IsPointedName lexeme.text.toList := by
  cases hspells with
  | identifier hword _ hother =>
    rw [String.toList_ofList]
    exact hword.plain_or_pointed.imp_right fun hpointed => ⟨hpointed, hother⟩
  | _ => cases hkind

end Spelled

/-- A word is a keyword, a number or an identifier. -/
theorem wordKind_cases (keywords : List String) (text : List Char) :
    wordKind keywords text = .keyword ∨ wordKind keywords text = .number ∨
      wordKind keywords text = .identifier := by
  unfold wordKind
  split
  · exact .inl rfl
  · split
    · exact .inr (.inl rfl)
    · exact .inr (.inr rfl)

/-- What a point is part of that stands plainly: a number, itself, or a name with a point in it. -/
inductive HoldsPoint (offset : Nat) (token : Token) : Span → Prop
  | number {span : Span} : token.kind = .number → HoldsPoint offset token span
  | symbol : token.toLexeme = ⟨.symbol, "."⟩ → HoldsPoint offset token ⟨offset, offset + 1⟩
  | name {span : Span} : token.kind = .identifier → IsPointedName token.text.toList →
    HoldsPoint offset token span

/-- A piece in which a point stands plainly has a lexeme: that of a number or a name, or the point
itself. -/
theorem Piece.Precedes.lexeme_of_point {piece : Piece} (hpiece : piece.Precedes after)
    (hkeywords : ∀ word ∈ keywords, '.' ∉ word.toList) (hzone : piece.zone = .plain)
    (hpoint : '.' ∈ piece.text) :
    ∃ lexeme, piece.lexeme? keywords = some lexeme ∧
      (lexeme.kind = .number ∨ piece = .symbol '.' ∨
        lexeme.kind = .identifier ∧ IsPointedName lexeme.text.toList) := by
  cases hpiece with
  | @blank c _ hblank =>
    obtain rfl : '.' = c := List.mem_singleton.mp hpoint
    exact absurd hblank (by decide)
  | lineComment _ _ | blockComment _ | quoted _ => cases hzone
  | @word text _ hword _ =>
    refine ⟨_, rfl, ?_⟩
    have hspells := hword.spells keywords
    have hnot : ¬∀ c ∈ (String.ofList text).toList, isWordChar c = true := fun htext => by
      rw [String.toList_ofList] at htext
      simpa [isWordChar_point] using htext '.' hpoint
    rcases wordKind_cases keywords text with hkind | hkind | hkind
    · exact absurd (hspells.keyword_chars hkeywords hkind) hnot
    · exact .inl hkind
    · exact .inr (.inr ⟨hkind, (hspells.identifier_chars hkind).resolve_left hnot⟩)
  | @operator first second _ hoperator =>
    have hnone : '.' ∉ [first, second] := of_isOperator hoperator (by decide)
    exact absurd hpoint hnone
  | @symbol c _ hsymbol halone =>
    obtain rfl : '.' = c := List.mem_singleton.mp hpoint
    exact ⟨_, rfl, .inr (.inl rfl)⟩

/-- A point that stands plainly in what a scan passes is part of a token. -/
theorem Scan.Reads.token_of_point {scan : Scan} {rest : List Char} (hscan : scan.Reads rest)
    (hkeywords : ∀ word ∈ keywords, '.' ∉ word.toList) {start offset : Nat}
    (hdrop : text.drop start = rest) (hpoint : rest[offset]? = some '.')
    (hplain : (zones .plain rest)[offset]? = some .plain)
    (hinside : offset < (textOf scan.pieces).length) :
    ∃ token ∈ tokensAt keywords (.behind file (text.take start)) scan.pieces, ∃ span,
      IsTokenAt keywords file text span token ∧ span.start ≤ start + offset ∧
        start + offset < span.stop ∧ HoldsPoint (start + offset) token span := by
  induction hscan generalizing start offset with
  | ended | halted _ => cases hinside
  | @piece piece scan after hpiece hscan ih =>
    by_cases hfirst : offset < piece.text.length
    · rw [List.getElem?_append_left hfirst] at hpoint
      rw [hpiece.zones_eq, List.getElem?_append_left (by simpa using hfirst),
        List.getElem?_replicate_of_lt hfirst] at hplain
      obtain ⟨lexeme, hsome, hholds⟩ := hpiece.lexeme_of_point hkeywords (Option.some.inj hplain)
        (List.mem_of_getElem? hpoint)
      refine ⟨⟨lexeme, .behind file (text.take start)⟩, ?_,
        ⟨start, start + piece.text.length⟩, hpiece.isTokenAt hsome hdrop, Nat.le_add_right _ _,
        Nat.add_lt_add_left hfirst start, ?_⟩
      · rw [tokensAt]
        simp [hsome]
      · rcases hholds with hnumber | rfl | ⟨hkind, hname⟩
        · exact .number hnumber
        · obtain rfl : offset = 0 := Nat.lt_one_iff.mp hfirst
          cases hsome
          exact .symbol rfl
        · exact .name hkind hname
    · obtain ⟨further, rfl⟩ := Nat.exists_eq_add_of_le (Nat.le_of_not_lt hfirst)
      rw [List.getElem?_append_right (Nat.le_add_right _ _), Nat.add_sub_cancel_left] at hpoint
      rw [hpiece.zones_eq, List.getElem?_append_right (by simp), List.length_replicate,
        Nat.add_sub_cancel_left] at hplain
      have hlater : further < (textOf scan.pieces).length := by
        rw [textOf, List.flatMap_cons, List.length_append] at hinside
        exact Nat.lt_of_add_lt_add_left hinside
      obtain ⟨token, hmem, span, htoken⟩ := ih (drop_behind hdrop) hpoint hplain hlater
      rw [take_behind hdrop, ← Location.behind_advance] at hmem
      rw [Nat.add_assoc] at htoken
      refine ⟨token, ?_, span, htoken⟩
      rw [tokensAt]
      cases piece.lexeme? keywords with
      | none => exact hmem
      | some lexeme => exact List.mem_cons_of_mem _ hmem

section Unread

variable {fault : Fault} {faulty : List Char}

/-- A comment in marks that has no end lasts to the end of the text. -/
theorem zones_blockComment_open {body : List Char} (hopen : ¬['*', '/'] <:+: body) :
    zones .blockComment body = List.replicate body.length .blockComment := by
  induction body with
  | nil => rfl
  | cons c rest ih =>
    rw [zones_blockComment_cons fun hprefix => hopen hprefix.isInfix,
      ih fun hinside => hopen (List.infix_cons hinside)]
    rfl

/-- Where a quoted text or a comment in marks is open, nothing stands plainly behind its first
character. -/
theorem Fault.Opens.not_plain (hopens : fault.Opens faulty) (hknown : ¬IsForeignAt faulty 0)
    (offset : Nat) : (zones .plain faulty)[offset]? ≠ some .plain := by
  have hnone (zone : Zone) (hzone : zone ≠ .plain) (count : Nat) :
      (List.replicate count zone)[offset]? ≠ some .plain := fun hplain =>
    hzone (List.eq_of_mem_replicate (List.mem_of_getElem? hplain)).symm
  cases hopens with
  | @unterminatedString body hbody =>
    have hstays : ∀ c ∈ body, ∀ rest, zones .quoted (c :: rest) = .quoted :: zones .quoted rest :=
      fun c hmem => zones_quoted_cons (by rintro rfl; exact hbody hmem)
    have hall := zones_stays [] hstays
    rw [List.append_nil, zones, List.append_nil] at hall
    rw [zones, hall, ← List.replicate_succ]
    exact hnone .quoted nofun _
  | unterminatedComment hopen =>
    rw [zones, zones_blockComment_open hopen, ← List.replicate_succ, ← List.replicate_succ]
    exact hnone .blockComment nofun _
  | invalidCharacter hblank hword hsymbol hquote =>
    exact absurd (Fault.Opens.isForeignAt (.invalidCharacter hblank hword hsymbol hquote)) hknown

/-- A point that stands plainly, with nothing foreign in front of it, is in what the scan passes. -/
theorem Scan.Reads.lt_of_plain {scan : Scan} (hscan : scan.Reads text) {offset : Nat}
    (hplain : (zones .plain text)[offset]? = some .plain)
    (hknown : ∀ earlier ≤ offset, ¬IsForeignAt text earlier) :
    offset < (textOf scan.pieces).length := by
  by_contra hbeyond
  obtain ⟨further, rfl⟩ := Nat.exists_eq_add_of_le (Nat.le_of_not_lt hbeyond)
  have hleads : Leads .plain (textOf scan.pieces) .plain scan.rest := hscan.leads
  have hforeign := hleads.isForeignAt_append 0
  obtain ⟨inside, hzones, hmatch⟩ := hleads
  rw [hscan.text_eq, hzones, hmatch.length_eq, List.getElem?_append_right (Nat.le_add_right _ _),
    Nat.add_sub_cancel_left] at hplain
  rcases hfault : scan.fault with _ | ⟨fault, faulty⟩
  · rw [Scan.rest, hfault] at hplain
    cases hplain
  · have hrest : scan.rest = faulty := by rw [Scan.rest, hfault]
    rw [hrest] at hplain hforeign
    rw [← hrest, ← hscan.text_eq, hrest] at hforeign
    exact (hscan.opens hfault).not_plain
      (fun h => hknown _ (Nat.le_add_right _ _) (hforeign.mpr h)) further hplain

end Unread

/-- A name with a point in it is read as one identifier where it stands alone. -/
theorem IsPointedName.tokenize {source : String} (hname : IsPointedName source.toList)
    (hnot : source ∉ keywords) (file : String) :
    (tokenize source keywords file).1.map Token.toLexeme =
      [⟨.identifier, source⟩, ⟨.endOfInput, ""⟩] := by
  have hspells : Spells keywords source.toList ⟨.identifier, source⟩ := by
    have hidentifier := hname.isWord.spells keywords
    rw [wordKind, if_neg, if_neg, String.ofList_toList] at hidentifier
    · exact hidentifier
    · exact fun hnumber => hname.2 ((isNumber_iff _).mp hnumber)
    · rw [String.ofList_toList]
      exact fun hmem => hnot (List.contains_iff_mem.mp hmem)
  have hlaid : LaidOut keywords source.toList [⟨.identifier, source⟩] := .flush (.last hspells)
  obtain ⟨pieces, hscan, hlexemes⟩ := hlaid.lexes.scanFrom (Nat.le_refl _)
  rw [tokenize_of_scan keywords file hscan, List.map_append, map_toLexeme_tokensAt, hlexemes]
  rfl

/-- What becomes of the points of a source, if no keyword has one. Keywords consist of characters of
words, and so do identifiers but for the names with a point in them, each of which is read as one
identifier where it stands alone. Every point that stands plainly, with no foreign character in
front of it, is part of a number or of such a name, or it is a symbol of its own. -/
theorem tokenize_points {keywords : List String}
    (hkeywords : ∀ word ∈ keywords, '.' ∉ word.toList) (source file : String) :
    let text := source.toList
    let tokens := (tokenize source keywords file).1
    (∀ token ∈ tokens, token.kind = .keyword → ∀ c ∈ token.text.toList, isWordChar c = true) ∧
    (∀ token ∈ tokens, token.kind = .identifier →
      (∀ c ∈ token.text.toList, isWordChar c = true) ∨ IsPointedName token.text.toList) ∧
    (IsPointedName text →
      tokens.map Token.toLexeme = [⟨.identifier, source⟩, ⟨.endOfInput, ""⟩]) ∧
    ∀ offset, text[offset]? = some '.' → (zones .plain text)[offset]? = some .plain →
      (∀ earlier < offset, ¬IsForeignAt text earlier) →
        ∃ token ∈ tokens, ∃ span, IsTokenAt keywords file text span token ∧
          span.start ≤ offset ∧ offset < span.stop ∧ HoldsPoint offset token span := by
  intro text tokens
  have hspelled {token : Token} (hmem : token ∈ tokens) (hkind : token.kind ≠ .endOfInput) :
      ∃ spelling, Spells keywords spelling token.toLexeme := by
    rcases List.mem_append.mp hmem with hinner | hend
    · exact spells_of_mem_tokenization hinner
    · rw [List.eq_of_mem_replicate hend] at hkind
      exact absurd rfl hkind
  refine ⟨fun token hmem hkind => ?_, fun token hmem hkind => ?_, fun hname => ?_,
    fun offset hpoint hplain hearlier => ?_⟩
  · obtain ⟨spelling, hspells⟩ := hspelled hmem (by rw [hkind]; nofun)
    exact hspells.keyword_chars hkeywords hkind
  · obtain ⟨spelling, hspells⟩ := hspelled hmem (by rw [hkind]; nofun)
    exact hspells.identifier_chars hkind
  · exact hname.tokenize (fun hmem => hkeywords source hmem hname.point_mem) file
  · have hscan : (scan text).Reads text := scan_reads text
    have hknown : ∀ earlier ≤ offset, ¬IsForeignAt text earlier := by
      intro earlier hle
      rcases Nat.lt_or_eq_of_le hle with hlt | rfl
      · exact hearlier earlier hlt
      · rintro ⟨-, c, hchar, hforeign⟩
        obtain rfl := Option.some.inj (hpoint.symm.trans hchar)
        exact absurd hforeign (by decide)
    obtain ⟨token, hmem, span, htoken⟩ := hscan.token_of_point hkeywords (List.drop_zero) hpoint
      hplain (hscan.lt_of_plain hplain hknown)
    rw [Nat.zero_add] at htoken
    exact ⟨token, List.mem_append_left _ hmem, span, htoken⟩

/-- A letter behind the fraction makes a number with a point into a name with a point in it. -/
theorem tokenize_points_letter :
    (∀ word ∈ ["let", "fn"], '.' ∉ word.toList) ∧ IsPointedName ['1', '.', '5', 'x'] ∧
      (tokenize "1.5x" ["let", "fn"] "main").1.map Token.toLexeme =
        [⟨.identifier, "1.5x"⟩, ⟨.endOfInput, ""⟩] := by
  have hkeywords : ∀ word ∈ ["let", "fn"], '.' ∉ word.toList := by decide
  have hname : IsPointedName "1.5x".toList := by
    have hwhole : ∀ c ∈ ['1'], Unicode.isDigit c = true := List.forall_mem_singleton.mpr (by decide)
    have hmore : ∀ c ∈ ['x'], isWordChar c = true := List.forall_mem_singleton.mpr (by decide)
    refine ⟨⟨['1'], '5', ['x'], rfl, hwhole, by decide, hmore⟩, fun hdecimal => ?_⟩
    exact absurd ((isNumber_iff _).mpr hdecimal) (by decide)
  exact ⟨hkeywords, hname, (tokenize_points hkeywords "1.5x" "main").2.2.1 hname⟩

end BraceLang.Source
