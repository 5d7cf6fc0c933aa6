import BraceLang.Proofs.Source.Tiling

/-!
# Sources with gaps

A source may be written as a row of spellings with gaps between them. A gap begins with white space
and may go on with white space and comments. Whatever the gaps are, the tokens of such a source are
the lexemes that are spelled; and whatever the source is, its tokens are lexemes that have a
spelling.
-/

namespace BraceLang.Source

/-- A decimal numeral: digits of ASCII, of which at least one stands behind a point if there is
one. -/
def IsDecimal (text : List Char) : Prop :=
  ∃ whole point fraction, text = whole ++ (point ++ fraction) ∧
    (∀ c ∈ whole, isAsciiDigit c = true) ∧ (point = [] ∨ point = ['.']) ∧ fraction ≠ [] ∧
    ∀ c ∈ fraction, isAsciiDigit c = true

/-- A text that spells a lexeme. -/
inductive Spells (keywords : List String) : List Char → Lexeme → Prop
  | keyword {text : List Char} : IsWord text → String.ofList text ∈ keywords →
    Spells keywords text ⟨.keyword, .ofList text⟩
  | number {text : List Char} : IsWord text → String.ofList text ∉ keywords → IsDecimal text →
    Spells keywords text ⟨.number, .ofList text⟩
  | identifier {text : List Char} : IsWord text → String.ofList text ∉ keywords →
    ¬IsDecimal text → Spells keywords text ⟨.identifier, .ofList text⟩
  | string {body : List Char} : body ≠ [] → '"' ∉ body →
    Spells keywords ('"' :: (body ++ ['"'])) ⟨.string, .ofList body⟩
  | operator {first second : Char} : isOperator first second = true →
    Spells keywords [first, second] ⟨.operator, .ofList [first, second]⟩
  | symbol {c : Char} : isPunctuation c = true → c ≠ '"' → c ≠ '_' →
    Spells keywords [c] ⟨.symbol, .ofList [c]⟩

/-- White space and comments, each comment on a line with the line feed that ends it. -/
inductive IsFiller : List Char → Prop
  | nil : IsFiller []
  | blank {c : Char} {rest : List Char} : Unicode.isBlank c = true → IsFiller rest →
    IsFiller (c :: rest)
  | lineComment {body rest : List Char} : '\n' ∉ body → IsFiller rest →
    IsFiller ('/' :: '/' :: (body ++ '\n' :: rest))
  | blockComment {body rest : List Char} : ¬['*', '/'] <:+: body ++ ['*'] → IsFiller rest →
    IsFiller ('/' :: '*' :: (body ++ '*' :: '/' :: rest))

/-- What may stand between two spellings: white space, and anything that is read as nothing behind
it. -/
inductive Separates : List Char → Prop
  | mk {c : Char} {rest : List Char} : Unicode.isBlank c = true → IsFiller rest →
    Separates (c :: rest)

/-- Spellings of some lexemes one after the other, each but the last with a gap behind it. -/
inductive Spaced (keywords : List String) : List Char → List Lexeme → Prop
  | nil : Spaced keywords [] []
  | last {text : List Char} {lexeme : Lexeme} : Spells keywords text lexeme →
    Spaced keywords text [lexeme]
  | cons {text gap rest : List Char} {lexeme : Lexeme} {lexemes : List Lexeme} :
    Spells keywords text lexeme → Separates gap → Spaced keywords rest lexemes →
    Spaced keywords (text ++ (gap ++ rest)) (lexeme :: lexemes)

/-- A source that spells some lexemes with gaps between them, and maybe with one before the first
and one behind the last. -/
inductive LaidOut (keywords : List String) : List Char → List Lexeme → Prop
  | flush {text : List Char} {lexemes : List Lexeme} : Spaced keywords text lexemes →
    LaidOut keywords text lexemes
  | indented {gap rest : List Char} {lexemes : List Lexeme} : Separates gap →
    Spaced keywords rest lexemes → LaidOut keywords (gap ++ rest) lexemes

section Characters

variable {c : Char}

/-- White space is in no word. -/
theorem isWordChar_of_isBlank (hblank : Unicode.isBlank c = true) : isWordChar c = false := by
  have hall : ∀ run ∈ Unicode.blankRuns, ∀ code ∈ List.range' run.1 (run.2 + 1 - run.1),
      isWordChar (.ofNat code) = false := by
    decide +kernel
  obtain ⟨run, hrun, hcode⟩ := List.any_eq_true.mp hblank
  simp only [Bool.and_eq_true, decide_eq_true_eq] at hcode
  have hword := hall run hrun c.toNat (List.mem_range'_1.mpr ⟨hcode.1, by omega⟩)
  rwa [Char.ofNat_toNat] at hword

/-- White space is no digit. -/
theorem isDigit_of_isBlank (hblank : Unicode.isBlank c = true) : Unicode.isDigit c = false := by
  refine Bool.eq_false_iff.mpr fun hdigit => ?_
  have hword := isWordChar_of_isBlank hblank
  rw [isWordChar_of_isDigit hdigit] at hword
  cases hword

/-- White space is not the second character of an operator. -/
theorem isOperator_of_isBlank (first : Char) (hblank : Unicode.isBlank c = true) :
    isOperator first c = false := by
  refine Bool.eq_false_iff.mpr fun hoperator => ?_
  have hnot : Unicode.isBlank c = false := of_isOperator hoperator (by decide)
  rw [hblank] at hnot
  cases hnot

/-- A character of words begins no operator. -/
theorem isOperator_of_isWordChar (second : Char) (hword : isWordChar c = true) :
    isOperator c second = false := by
  refine Bool.eq_false_iff.mpr fun hoperator => ?_
  have hnot : isWordChar c = false := of_isOperator hoperator (by decide)
  rw [hword] at hnot
  cases hnot

/-- The symbols are the punctuation of ASCII but the double quote and the underscore. -/
theorem isSymbol_of_isPunctuation (hpunctuation : isPunctuation c = true) (hquote : c ≠ '"')
    (hunderscore : c ≠ '_') : isSymbol c = true := by
  simpa [isPunctuation_eq, hquote, hunderscore] using hpunctuation

/-- Symbols are neither in words nor white space. -/
theorem isSymbol_excludes (hsymbol : isSymbol c = true) :
    isWordChar c = false ∧ Unicode.isBlank c = false := by
  have hall : ∀ code < 128, isSymbol (.ofNat code) = true →
      isWordChar (.ofNat code) = false ∧ Unicode.isBlank (.ofNat code) = false := by
    decide +kernel
  have hsymbol' := hall c.toNat (lt_of_isSymbol hsymbol)
  rw [Char.ofNat_toNat] at hsymbol'
  exact hsymbol' hsymbol

/-- A word begins with a character of words or with a point. -/
theorem IsWord.head {text : List Char} (hword : IsWord text) (hhead : c ∈ text.head?) :
    isWordChar c = true ∨ c = '.' := by
  cases hword with
  | plain _ htext => exact .inl (htext c (List.mem_of_mem_head? hhead))
  | @pointed whole digit more hwhole _ _ =>
    cases whole with
    | nil => exact .inr (Option.some.inj hhead).symm
    | cons first rest =>
      obtain rfl : first = c := Option.some.inj hhead
      exact .inl (isWordChar_of_isDigit (hwhole first List.mem_cons_self))

/-- Where a word begins, nothing else does. -/
theorem IsWord.begins {text : List Char} (hword : IsWord text) (hhead : c ∈ text.head?) :
    c ≠ '"' ∧ Unicode.isBlank c = false ∧ c ≠ '/' ∧ ∀ d, isOperator c d = false := by
  rcases hword.head hhead with hchar | rfl
  · refine ⟨?_, ?_, ?_, fun d => isOperator_of_isWordChar d hchar⟩
    · rintro rfl
      exact absurd hchar (by decide)
    · refine Bool.eq_false_iff.mpr fun hblank => ?_
      rw [isWordChar_of_isBlank hblank] at hchar
      cases hchar
    · rintro rfl
      exact absurd hchar (by decide)
  · exact ⟨by decide, by decide, by decide, fun d => by simp [isOperator]⟩

end Characters

/-- A text is split where a property ends that its beginning has. -/
theorem span_of_forall {p : Char → Bool} {front back : List Char} (hfront : ∀ c ∈ front, p c = true)
    (hback : ∀ c ∈ back.head?, p c = false) : (front ++ back).span p = (front, back) := by
  rw [List.span_eq_takeWhile_dropWhile, List.takeWhile_append_of_pos hfront,
    List.dropWhile_append_of_pos hfront]
  cases back with
  | nil => simp
  | cons c rest => simp [hback c rfl]

/-- A comment is split at the first place where it can end. -/
theorem splitComment_append {body : List Char} (after : List Char)
    (hfirst : ¬['*', '/'] <:+: body ++ ['*']) :
    splitComment (body ++ '*' :: '/' :: after) = some (body, after) := by
  induction body with
  | nil => rfl
  | cons c rest ih =>
    have hrest := ih fun hinside => hfirst (List.infix_cons hinside)
    rw [List.cons_append, splitComment]
    · rw [hrest]
      rfl
    · rintro behind rfl hbehind
      cases rest with
      | nil => simp at hbehind
      | cons d more =>
        obtain ⟨rfl, -⟩ := List.cons.inj hbehind
        exact hfirst (List.IsPrefix.isInfix ⟨more ++ ['*'], rfl⟩)

/-- A word is read as a number exactly if it is a decimal numeral. -/
theorem isNumber_iff (text : List Char) : isNumber text = true ↔ IsDecimal text := by
  constructor
  · intro hnumber
    unfold isNumber at hnumber
    have hwhole : ∀ c ∈ text.takeWhile isAsciiDigit, isAsciiDigit c = true :=
      fun c hmem => List.mem_takeWhile_imp hmem
    have htext := List.takeWhile_append_dropWhile (p := isAsciiDigit) (l := text)
    split at hnumber
    · next hnone =>
      rw [hnone, List.append_nil] at htext
      refine ⟨[], [], text, rfl, nofun, .inl rfl, by simpa using hnumber, ?_⟩
      rwa [← htext]
    · next c fraction hsome =>
      simp only [Bool.and_eq_true, beq_iff_eq, Bool.not_eq_true', List.isEmpty_eq_false_iff,
        List.all_eq_true] at hnumber
      obtain ⟨⟨rfl, hfraction⟩, hdigits⟩ := hnumber
      rw [hsome] at htext
      exact ⟨_, ['.'], fraction, htext.symm, hwhole, .inr rfl, hfraction, hdigits⟩
  · rintro ⟨whole, point, fraction, rfl, hwhole, rfl | rfl, hsome, hfraction⟩
    · have hall : ∀ c ∈ whole ++ ([] ++ fraction), isAsciiDigit c = true := by
        simpa [or_imp, forall_and] using And.intro hwhole hfraction
      rw [isNumber, List.dropWhile_eq_nil_iff.mpr hall]
      simp [hsome]
    · have hpoint : ¬isAsciiDigit '.' = true := by decide
      rw [isNumber, List.dropWhile_append_of_pos hwhole, List.singleton_append,
        List.dropWhile_cons_of_neg hpoint]
      simpa [hsome] using hfraction

/-- The kind of a word is that of the lexeme that it spells. -/
theorem IsWord.spells {text : List Char} (keywords : List String) (hword : IsWord text) :
    Spells keywords text ⟨wordKind keywords text, .ofList text⟩ := by
  unfold wordKind
  split
  · next hkeyword => exact .keyword hword (List.contains_iff_mem.mp hkeyword)
  · next hother =>
    have hnot : String.ofList text ∉ keywords := fun hmem =>
      hother (List.contains_iff_mem.mpr hmem)
    split
    · next hnumber => exact .number hword hnot ((isNumber_iff text).mp hnumber)
    · next hnone =>
      exact .identifier hword hnot fun hdecimal => hnone ((isNumber_iff text).mpr hdecimal)

section Pieces

variable (afterWord : Bool) {c : Char} {body after : List Char}

/-- White space is passed one character at a time. -/
theorem nextPiece_blank (hblank : Unicode.isBlank c = true) (after : List Char) :
    nextPiece afterWord c after = .ok (.blank c, after) := by
  have hquote : c ≠ '"' := by
    rintro rfl
    exact absurd hblank (by decide)
  unfold nextPiece
  rw [if_neg hquote, if_pos hblank]

/-- A comment on a line is passed up to the line feed or to the end. -/
theorem nextPiece_lineComment (hbody : '\n' ∉ body) (hafter : ∀ d ∈ after.head?, d = '\n') :
    nextPiece afterWord '/' ('/' :: (body ++ after)) = .ok (.lineComment body, after) := by
  have hspan : (body ++ after).span (· != '\n') = (body, after) :=
    span_of_forall (fun c hmem => by simpa using ne_of_mem_of_not_mem hmem hbody) fun d hhead => by
      simpa using hafter d hhead
  rw [nextPiece, if_neg (by decide), if_neg (by decide)]
  simp only [hspan]

/-- A comment in marks is passed with its end. -/
theorem nextPiece_blockComment (hfirst : ¬['*', '/'] <:+: body ++ ['*']) (after : List Char) :
    nextPiece afterWord '/' ('*' :: (body ++ '*' :: '/' :: after)) =
      .ok (.blockComment body, after) := by
  rw [nextPiece, if_neg (by decide), if_neg (by decide)]
  simp only [splitComment_append after hfirst]

/-- A quoted text is read up to its closing quote. -/
theorem nextPiece_quoted (hbody : '"' ∉ body) (after : List Char) :
    nextPiece afterWord '"' (body ++ '"' :: after) = .ok (.quoted body, after) := by
  have hspan : (body ++ '"' :: after).span (· != '"') = (body, '"' :: after) :=
    span_of_forall (fun c hmem => by simpa using ne_of_mem_of_not_mem hmem hbody) (by simp)
  unfold nextPiece
  rw [if_pos rfl, hspan]

/-- What is neither quoted, blank nor a comment is an operator, a word or a symbol. -/
theorem nextPiece_plain (hquote : c ≠ '"') (hblank : Unicode.isBlank c = false)
    (hcomment : c = '/' → ∀ d ∈ after.head?, d ≠ '/' ∧ d ≠ '*') :
    nextPiece afterWord c after = nextPlain afterWord c after := by
  unfold nextPiece
  rw [if_neg hquote, if_neg (by simp [hblank])]
  split
  · exact absurd rfl (hcomment rfl _ rfl).1
  · exact absurd rfl (hcomment rfl _ rfl).2
  · rfl

/-- An operator is read as its two characters. -/
theorem nextPiece_operator {first second : Char} (hoperator : isOperator first second = true)
    (after : List Char) : nextPiece afterWord first (second :: after) =
      .ok (.operator first second, after) := by
  have hfirst : first ≠ '"' ∧ Unicode.isBlank first = false ∧ first ≠ '/' :=
    of_isOperator hoperator (by decide)
  rw [nextPiece_plain afterWord hfirst.1 hfirst.2.1 fun hslash => absurd hslash hfirst.2.2]
  rw [nextPlain, operatorBehind, if_pos hoperator]

/-- In front of white space no operator begins with a character. -/
theorem operatorBehind_of_blank (hafter : ∀ d ∈ after.head?, Unicode.isBlank d = true) :
    operatorBehind c after = none := by
  cases after with
  | nil => rfl
  | cons d rest =>
    rw [operatorBehind, if_neg (by simp [isOperator_of_isBlank c (hafter d rfl)])]

/-- A symbol in front of white space is read as itself. -/
theorem nextPiece_symbol (hsymbol : isSymbol c = true)
    (hafter : ∀ d ∈ after.head?, Unicode.isBlank d = true) :
    nextPiece afterWord c after = .ok (.symbol c, after) := by
  have hquote : c ≠ '"' := by
    rintro rfl
    exact absurd hsymbol (by decide)
  obtain ⟨hword, hblank⟩ := isSymbol_excludes hsymbol
  have hcomment : ∀ d ∈ after.head?, d ≠ '/' ∧ d ≠ '*' := by
    intro d hhead
    constructor <;> rintro rfl <;> exact absurd (hafter _ hhead) (by decide)
  have hsplit : splitWord afterWord (c :: after) = ([], c :: after) := by
    have hspan : (c :: after).span isWordChar = ([], c :: after) := by
      simpa using @span_of_forall isWordChar [] (c :: after) nofun (by simp [hword])
    unfold splitWord
    rw [hspan]
    dsimp only
    split
    · next digit more hbehind =>
      obtain ⟨rfl, rfl⟩ := List.cons.inj hbehind
      rw [isDigit_of_isBlank (hafter digit rfl)]
      simp
    · rfl
  rw [nextPiece_plain afterWord hquote hblank fun _ => hcomment, nextPlain,
    operatorBehind_of_blank hafter, hsplit]
  simp [hsymbol]

/-- A word in front of white space is split off as a whole. -/
theorem splitWord_of_isWord {text : List Char} (hword : IsWord text)
    (hafter : ∀ d ∈ after.head?, Unicode.isBlank d = true) :
    splitWord false (text ++ after) = (text, after) := by
  have hstop : ∀ d ∈ after.head?, isWordChar d = false :=
    fun d hhead => isWordChar_of_isBlank (hafter d hhead)
  cases hword with
  | plain hsome htext =>
    unfold splitWord
    rw [span_of_forall htext hstop]
    dsimp only
    split
    · exact absurd (hafter '.' rfl) (by decide)
    · rfl
  | @pointed whole digit more hwhole hdigit hmore =>
    have hdigits : ∀ d ∈ whole, isWordChar d = true :=
      fun d hmem => isWordChar_of_isDigit (hwhole d hmem)
    have hfraction : ∀ d ∈ digit :: more, isWordChar d = true :=
      List.forall_mem_cons.mpr ⟨isWordChar_of_isDigit hdigit, hmore⟩
    have hall : whole.all Unicode.isDigit = true := List.all_eq_true.mpr hwhole
    have hspan : (whole ++ '.' :: digit :: (more ++ after)).span isWordChar =
        (whole, '.' :: digit :: (more ++ after)) :=
      span_of_forall hdigits fun d hhead => by
        obtain rfl := Option.some.inj hhead
        decide
    have hrest : (digit :: (more ++ after)).span isWordChar = (digit :: more, after) :=
      span_of_forall hfraction hstop
    unfold splitWord
    rw [List.append_assoc, List.cons_append, List.cons_append, hspan]
    simp only [hall, hdigit, hrest, Bool.and_false, Bool.not_false, Bool.and_self, if_true]

/-- A word in front of white space is read, unless another word ends where it begins. -/
theorem nextPiece_word {text : List Char} (hword : IsWord (c :: text))
    (hafter : ∀ d ∈ after.head?, Unicode.isBlank d = true) :
    nextPiece false c (text ++ after) = .ok (.word (c :: text), after) := by
  obtain ⟨hquote, hblank, hslash, hoperator⟩ := hword.begins rfl
  have hbehind : operatorBehind c (text ++ after) = none := by
    cases text ++ after with
    | nil => rfl
    | cons d rest => rw [operatorBehind, if_neg (by simp [hoperator d])]
  have hsplit : splitWord false (c :: (text ++ after)) = (c :: text, after) :=
    splitWord_of_isWord hword hafter
  rw [nextPiece_plain false hquote hblank fun h => absurd h hslash, nextPlain, hbehind, hsplit]
  rfl

end Pieces

/-- The lexemes that the scan finds in a text that it reads without a fault. It is told whether a
word ends where the text begins. -/
inductive Lexes (keywords : List String) : Bool → List Char → List Lexeme → Prop
  | ended {afterWord : Bool} : Lexes keywords afterWord [] []
  | passed {afterWord : Bool} {c : Char} {rest after : List Char} {piece : Piece}
    {lexemes : List Lexeme} : nextPiece afterWord c rest = .ok (piece, after) →
    piece.lexeme? keywords = none → Lexes keywords piece.isWord after lexemes →
    Lexes keywords afterWord (c :: rest) lexemes
  | taken {afterWord : Bool} {c : Char} {rest after : List Char} {piece : Piece} {lexeme : Lexeme}
    {lexemes : List Lexeme} : nextPiece afterWord c rest = .ok (piece, after) →
    piece.lexeme? keywords = some lexeme → Lexes keywords piece.isWord after lexemes →
    Lexes keywords afterWord (c :: rest) (lexeme :: lexemes)

section Rows

variable {keywords : List String} {afterWord : Bool} {text gap rest after : List Char}
  {lexeme : Lexeme} {lexemes : List Lexeme}

/-- What is behind a piece is shorter than what begins with the piece. -/
theorem length_lt_of_nextPiece {c : Char} {piece : Piece}
    (hpiece : nextPiece afterWord c rest = .ok (piece, after)) :
    after.length < (c :: rest).length := by
  have hstep := nextPiece_reads afterWord c rest
  rw [hpiece] at hstep
  obtain ⟨htext, hprecedes⟩ := hstep
  have hsome := List.length_pos_iff.mpr hprecedes.text_ne_nil
  rw [htext, List.length_append]
  omega

/-- A piece is found in front of the others. -/
theorem scanFrom_of_nextPiece {fuel : Nat} {c : Char} {piece : Piece} {pieces : List Piece}
    {fault : Option (Fault × List Char)} (hpiece : nextPiece afterWord c rest = .ok (piece, after))
    (hscan : scanFrom fuel piece.isWord after = ⟨pieces, fault⟩) :
    scanFrom (fuel + 1) afterWord (c :: rest) = ⟨piece :: pieces, fault⟩ := by
  rw [scanFrom, hpiece]
  simp only [hscan]

/-- With fuel for every character the scan finds these lexemes and no fault. -/
theorem Lexes.scanFrom (htext : Lexes keywords afterWord text lexemes) {fuel : Nat}
    (hfuel : text.length ≤ fuel) :
    ∃ pieces, scanFrom fuel afterWord text = ⟨pieces, none⟩ ∧
      pieces.filterMap (·.lexeme? keywords) = lexemes := by
  induction htext generalizing fuel with
  | ended => exact ⟨[], by cases fuel <;> rfl, rfl⟩
  | passed hpiece hnone _ ih | taken hpiece hnone _ ih =>
    have hshorter := length_lt_of_nextPiece hpiece
    cases fuel with
    | zero => exact absurd hfuel (Nat.not_succ_le_zero _)
    | succ fuel =>
      obtain ⟨pieces, hscan, hlexemes⟩ :=
        ih (Nat.le_of_lt_succ (Nat.lt_of_lt_of_le hshorter hfuel))
      exact ⟨_, scanFrom_of_nextPiece hpiece hscan,
        by simp only [List.filterMap_cons, hnone, hlexemes]⟩

/-- White space and comments are passed. -/
theorem IsFiller.lexes (hgap : IsFiller gap) (hafter : Lexes keywords false after lexemes) :
    Lexes keywords false (gap ++ after) lexemes := by
  induction hgap with
  | nil => exact hafter
  | blank hblank _ ih => exact .passed (nextPiece_blank false hblank _) rfl ih
  | @lineComment body rest hbody _ ih =>
    have hfeed : Unicode.isBlank '\n' = true := by decide
    rw [List.cons_append, List.cons_append, List.append_assoc, List.cons_append]
    exact .passed (nextPiece_lineComment false hbody (by simp)) rfl
      (.passed (nextPiece_blank false hfeed _) rfl ih)
  | @blockComment body rest hfirst _ ih =>
    rw [List.cons_append, List.cons_append, List.append_assoc, List.cons_append, List.cons_append]
    exact .passed (nextPiece_blockComment false hfirst _) rfl ih

/-- A gap is passed, also behind a word. -/
theorem Separates.lexes (hgap : Separates gap) (hafter : Lexes keywords false after lexemes) :
    Lexes keywords afterWord (gap ++ after) lexemes := by
  obtain ⟨hblank, hfiller⟩ := hgap
  exact .passed (nextPiece_blank afterWord hblank _) rfl (hfiller.lexes hafter)

/-- A word in front of white space is read as its lexeme. -/
theorem IsWord.lexes (hword : IsWord text)
    (hlexeme : Piece.lexeme? keywords (.word text) = some lexeme)
    (hblank : ∀ d ∈ after.head?, Unicode.isBlank d = true)
    (hafter : Lexes keywords true after lexemes) :
    Lexes keywords false (text ++ after) (lexeme :: lexemes) := by
  cases text with
  | nil => exact absurd rfl hword.ne_nil
  | cons c rest => exact .taken (nextPiece_word hword hblank) hlexeme hafter

/-- A spelling in front of white space is read as its lexeme. -/
theorem Spells.lexes (hspells : Spells keywords text lexeme)
    (hblank : ∀ d ∈ after.head?, Unicode.isBlank d = true)
    (hafter : ∀ afterWord, Lexes keywords afterWord after lexemes) :
    Lexes keywords false (text ++ after) (lexeme :: lexemes) := by
  cases hspells with
  | keyword hword hmem =>
    refine hword.lexes ?_ hblank (hafter true)
    simp [Piece.lexeme?, wordKind, hmem]
  | number hword hnot hdecimal =>
    refine hword.lexes ?_ hblank (hafter true)
    simp [Piece.lexeme?, wordKind, hnot, (isNumber_iff text).mpr hdecimal]
  | identifier hword hnot hother =>
    refine hword.lexes ?_ hblank (hafter true)
    simp [Piece.lexeme?, wordKind, hnot, mt (isNumber_iff text).mp hother]
  | @string body hsome hbody =>
    rw [List.cons_append, List.append_assoc]
    refine .taken (nextPiece_quoted false hbody after) ?_ (hafter false)
    simp [Piece.lexeme?, hsome]
  | operator hoperator => exact .taken (nextPiece_operator false hoperator after) rfl (hafter false)
  | symbol hpunctuation hquote hunderscore =>
    have hsymbol := isSymbol_of_isPunctuation hpunctuation hquote hunderscore
    exact .taken (nextPiece_symbol false hsymbol hblank) rfl (hafter false)

/-- Spellings with gaps between them are read as their lexemes. -/
theorem Spaced.lexes (hspaced : Spaced keywords text lexemes) :
    Lexes keywords false text lexemes := by
  induction hspaced with
  | nil => exact .ended
  | @last text lexeme hspells =>
    have hlast : Lexes keywords false (text ++ []) [lexeme] := hspells.lexes nofun fun _ => .ended
    rwa [List.append_nil] at hlast
  | cons hspells hgap _ ih =>
    refine hspells.lexes ?_ fun afterWord => hgap.lexes ih
    obtain ⟨hblank, -⟩ := hgap
    rintro d ⟨⟩
    exact hblank

/-- A source with gaps is read as the lexemes that are spelled in it. -/
theorem LaidOut.lexes (hlaid : LaidOut keywords text lexemes) :
    Lexes keywords false text lexemes := by
  cases hlaid with
  | flush hspaced => exact hspaced.lexes
  | indented hgap hspaced => exact hgap.lexes hspaced.lexes

/-- The lexemes of the tokens of some pieces are those of the pieces. -/
theorem map_toLexeme_tokensAt (keywords : List String) (location : Location)
    (pieces : List Piece) : (tokensAt keywords location pieces).map Token.toLexeme =
      pieces.filterMap (·.lexeme? keywords) := by
  induction pieces generalizing location with
  | nil => rfl
  | cons piece rest ih =>
    rw [tokensAt, List.filterMap_cons]
    cases piece.lexeme? keywords with
    | none => exact ih _
    | some lexeme => rw [List.map_cons, ih]

/-- The pieces of a scan are as they can stand before the text behind them. -/
theorem Scan.Reads.precedes {scan : Scan} (hscan : scan.Reads text) :
    ∀ piece ∈ scan.pieces, ∃ after, piece.Precedes after := by
  induction hscan with
  | ended | halted _ => exact List.forall_mem_nil _
  | piece hpiece _ ih => exact List.forall_mem_cons.mpr ⟨⟨_, hpiece⟩, ih⟩

/-- What is read as a lexeme spells it. -/
theorem IsLexeme.spells (hlexeme : IsLexeme keywords text after lexeme) :
    Spells keywords text lexeme := by
  cases hlexeme with
  | word hword _ => exact hword.spells keywords
  | string hsome hbody => exact .string hsome hbody
  | operator hoperator => exact .operator hoperator
  | symbol hpunctuation hquote hunderscore _ => exact .symbol hpunctuation hquote hunderscore

/-- A token of a source is spelled there. -/
theorem spells_of_mem_tokenization {source file : String} {token : Token}
    (hmem : token ∈ (tokenization source keywords file).tokens) :
    ∃ text, Spells keywords text token.toLexeme := by
  obtain ⟨piece, hpiece, hlexeme⟩ : ∃ piece ∈ (scan source.toList).pieces,
      piece.lexeme? keywords = some token.toLexeme := by
    rw [← List.mem_filterMap, ← map_toLexeme_tokensAt keywords (.start file)]
    exact List.mem_map_of_mem hmem
  obtain ⟨after, hprecedes⟩ := (scan_reads source.toList).precedes piece hpiece
  exact ⟨piece.text, (hprecedes.isLexeme hlexeme).spells⟩

end Rows

/-- Reading tokens undoes spelling with gaps. Where a source is laid out as a row of spellings, with
any gaps between them and maybe around them, its tokens are the lexemes that are spelled, in their
order, with one more for the end, and nothing is reported. Conversely every token of every source
has a spelling, but for those that mark the end. -/
theorem tokenize_laidOut (keywords : List String) (file : String) :
    (∀ source lexemes, LaidOut keywords source.toList lexemes →
      (tokenize source keywords file).1.map Token.toLexeme = lexemes ++ [⟨.endOfInput, ""⟩] ∧
      (tokenize source keywords file).2 = []) ∧
    ∀ source, ∀ token ∈ (tokenize source keywords file).1,
      token.toLexeme = ⟨.endOfInput, ""⟩ ∨ ∃ text, Spells keywords text token.toLexeme := by
  constructor
  · intro source lexemes hlaid
    obtain ⟨pieces, hpieces, hlexemes⟩ := hlaid.lexes.scanFrom (Nat.le_refl _)
    have hscan : scan source.toList = ⟨pieces, none⟩ := hpieces
    have hresult : tokenize source keywords file =
        (tokensAt keywords (.start file) pieces ++
          [.ending ((Location.start file).advance (textOf pieces))], []) := by
      simp only [tokenize, tokenization, Tokenization.complete, Tokenization.reportTo, hscan]
      rfl
    rw [hresult, List.map_append, map_toLexeme_tokensAt, hlexemes]
    exact ⟨rfl, rfl⟩
  · intro source token hmem
    rcases List.mem_append.mp hmem with hinner | hend
    · exact .inr (spells_of_mem_tokenization hinner)
    · rw [List.eq_of_mem_replicate hend]
      exact .inl rfl

/-- A keyword and a number with a comment between them and a line feed behind them. -/
theorem tokenize_laidOut_commented :
    let text := ['l', 'e', 't'] ++
      ([' ', '/', '*', '!', '*', '/'] ++ (['.', '5'] ++ (['\n'] ++ [])))
    let lexemes : List Lexeme := [⟨.keyword, "let"⟩, ⟨.number, ".5"⟩]
    LaidOut ["let"] text lexemes ∧
      (tokenize (.ofList text) ["let"] "main").1.map Token.toLexeme =
        lexemes ++ [⟨.endOfInput, ""⟩] ∧
      (tokenize (.ofList text) ["let"] "main").2 = [] := by
  intro text lexemes
  have hkeyword : Spells ["let"] ['l', 'e', 't'] ⟨.keyword, "let"⟩ :=
    .keyword (.plain (by decide) (List.all_eq_true.mp rfl)) (by decide)
  have hword : IsWord ([] ++ '.' :: '5' :: []) := .pointed nofun (by decide) nofun
  have hnumber : Spells ["let"] ['.', '5'] ⟨.number, ".5"⟩ :=
    .number hword (by decide)
      ⟨[], ['.'], ['5'], rfl, nofun, .inr rfl, by decide, List.all_eq_true.mp rfl⟩
  have hcomment : IsFiller ('/' :: '*' :: (['!'] ++ '*' :: '/' :: [])) :=
    .blockComment (by decide) .nil
  have hgap : Separates [' ', '/', '*', '!', '*', '/'] := .mk (by decide) hcomment
  have hfeed : Separates ['\n'] := .mk (by decide) .nil
  have hlaid : LaidOut ["let"] text lexemes :=
    .flush (.cons hkeyword hgap (.cons hnumber hfeed .nil))
  have htokens := (tokenize_laidOut ["let"] "main").1 (.ofList text) lexemes
    (by rwa [String.toList_ofList])
  exact ⟨hlaid, htokens⟩

end BraceLang.Source
