import BraceLang.Proofs.Source.Zones
import Mathlib.Data.List.DropRight
import Mathlib.Data.List.Forall2

/-!
# The tokens of a source tile it

Each token of a source stands for a part of it, at the place of the first character. The parts
follow one another, and what is between them is read as nothing: white space, comments and empty
quoted texts. So all of a source is accounted for up to its end or to the fault that stops the
scan.
-/

namespace BraceLang

/-- The place behind a text at the beginning of a file: one line more than there are line feeds, and
one column more than there are characters since the last of them. -/
def Location.behind (file : String) (text : List Char) : Location where
  line := 1 + text.count '\n'
  column := 1 + (text.rtakeWhile (· != '\n')).length
  file

/-- Passing a character at the end of a text. -/
theorem Location.behind_next (file : String) (text : List Char) (c : Char) :
    (behind file text).next c = behind file (text ++ [c]) := by
  by_cases hfeed : c = '\n'
  · subst hfeed
    simp only [behind, next, if_true, List.count_append, List.count_singleton_self,
      List.rtakeWhile_concat_neg (· != '\n') text '\n' (by decide), List.length_nil]
    simp only [Location.mk.injEq, and_true]
    omega
  · have hother : (c != '\n') = true := bne_iff_ne.mpr hfeed
    simp only [behind, next, if_neg hfeed, List.count_append, List.count_singleton,
      List.rtakeWhile_concat_pos (· != '\n') text c hother, List.length_append]
    simp [hfeed]
    omega

/-- The place behind a text is where one comes by passing it. -/
theorem Location.behind_advance (file : String) (before text : List Char) :
    (behind file before).advance text = behind file (before ++ text) := by
  induction text generalizing before with
  | nil => rw [List.append_nil, advance, List.foldl_nil]
  | cons c rest ih =>
    have hrest := ih (before ++ [c])
    rw [List.append_assoc, List.singleton_append] at hrest
    rw [advance, List.foldl_cons, behind_next, ← hrest, advance]

namespace Source

/-- A part of a text, told by the offsets where it begins and where it ends. -/
structure Span where
  start : Nat
  stop : Nat
  deriving DecidableEq, Repr

/-- The characters of a text from an offset up to another one. -/
def slice (text : List Char) (start stop : Nat) : List Char :=
  (text.drop start).take (stop - start)

/-- A text that is read as nothing before another text: white space, comments with their ends, and
empty quoted texts. -/
inductive IsGap : List Char → List Char → Prop
  | nil {after : List Char} : IsGap [] after
  | blank {c : Char} {gap after : List Char} : Unicode.isBlank c = true → IsGap gap after →
    IsGap (c :: gap) after
  | lineComment {body gap after : List Char} : '\n' ∉ body →
    (∀ c ∈ (gap ++ after).head?, c = '\n') → IsGap gap after →
      IsGap ('/' :: '/' :: body ++ gap) after
  | blockComment {body gap after : List Char} : ¬['*', '/'] <:+: body ++ ['*'] → IsGap gap after →
    IsGap ('/' :: '*' :: (body ++ ['*', '/']) ++ gap) after
  | emptyText {gap after : List Char} : IsGap gap after → IsGap ('"' :: '"' :: gap) after

/-- A text that is read as a lexeme before another text. Words are not followed by characters of
words, and symbols begin neither an operator nor a comment. -/
inductive IsLexeme (keywords : List String) : List Char → List Char → Lexeme → Prop
  | word {text after : List Char} : IsWord text → (∀ c ∈ after.head?, isWordChar c = false) →
    IsLexeme keywords text after ⟨wordKind keywords text, .ofList text⟩
  | string {body after : List Char} : body ≠ [] → '"' ∉ body →
    IsLexeme keywords ('"' :: (body ++ ['"'])) after ⟨.string, .ofList body⟩
  | operator {first second : Char} {after : List Char} : isOperator first second = true →
    IsLexeme keywords [first, second] after ⟨.operator, .ofList [first, second]⟩
  | symbol {c : Char} {after : List Char} : isPunctuation c = true → c ≠ '"' → c ≠ '_' →
    IsAlone c after → IsLexeme keywords [c] after ⟨.symbol, .ofList [c]⟩

/-- A token that stands for a part of a text. -/
def IsTokenAt (keywords : List String) (file : String) (text : List Char) (span : Span)
    (token : Token) : Prop :=
  IsLexeme keywords (slice text span.start span.stop) (text.drop span.stop) token.toLexeme ∧
    token.location = .behind file (text.take span.start)

/-- Parts of a text that follow one another from an offset up to another one, with nothing but gaps
before, between and behind them. -/
def Tiled (text : List Char) : Nat → List Span → Nat → Prop
  | start, [], stop => start ≤ stop ∧ IsGap (slice text start stop) (text.drop stop)
  | start, span :: rest, stop =>
    start ≤ span.start ∧ IsGap (slice text start span.start) (text.drop span.start) ∧
      span.start < span.stop ∧ Tiled text span.stop rest stop

/-- How the reading of a text ends that is tiled up to an offset: where the end token stands, and
what is reported. -/
inductive Ends (file : String) (text : List Char) : Nat → Nat → List Diagnostic → Prop
  | complete : Ends file text text.length text.length []
  | foreign {reached : Nat} {diagnostic : Diagnostic} :
    diagnostic.kind = .invalidCharacter →
      diagnostic.location = some (.behind file (text.take reached)) →
        IsForeignAt text reached → Ends file text reached reached [diagnostic]
  | openString {reached : Nat} {body : List Char} {diagnostic : Diagnostic} :
    diagnostic.kind = .unterminatedString →
      diagnostic.location = some (.behind file (text.take reached)) →
        text.drop reached = '"' :: body → '"' ∉ body →
          Ends file text reached text.length [diagnostic]
  | openComment {reached : Nat} {body : List Char} {diagnostic : Diagnostic} :
    diagnostic.kind = .unterminatedComment →
      diagnostic.location = some (.behind file (text.take reached)) →
        text.drop reached = '/' :: '*' :: body → ¬['*', '/'] <:+: body →
          Ends file text reached text.length [diagnostic]

variable {keywords : List String} {file : String}

/-- A piece without a lexeme lengthens the gap behind it. -/
theorem Piece.Precedes.isGap {piece : Piece} {gap after : List Char}
    (hpiece : piece.Precedes (gap ++ after)) (hnone : piece.lexeme? keywords = none)
    (hgap : IsGap gap after) : IsGap (piece.text ++ gap) after := by
  cases hpiece with
  | blank hblank => exact .blank hblank hgap
  | lineComment hbody hfeed => exact .lineComment hbody hfeed hgap
  | blockComment hfirst => exact .blockComment hfirst hgap
  | @quoted body _ hbody =>
    cases body with
    | nil => exact .emptyText hgap
    | cons c rest => cases hnone
  | word _ _ => cases hnone
  | operator _ => cases hnone
  | symbol _ _ => cases hnone

/-- A piece with a lexeme is read as it. -/
theorem Piece.Precedes.isLexeme {piece : Piece} {after : List Char} {lexeme : Lexeme}
    (hpiece : piece.Precedes after) (hsome : piece.lexeme? keywords = some lexeme) :
    IsLexeme keywords piece.text after lexeme := by
  cases hpiece with
  | blank _ => cases hsome
  | lineComment _ _ => cases hsome
  | blockComment _ => cases hsome
  | word hword hafter =>
    cases hsome
    exact .word hword hafter
  | @quoted body _ hbody =>
    cases body with
    | nil => cases hsome
    | cons c rest =>
      cases hsome
      exact .string (List.cons_ne_nil c rest) hbody
  | operator hoperator =>
    cases hsome
    exact .operator hoperator
  | @symbol c _ hsymbol halone =>
    cases hsome
    have hpunctuation : isPunctuation c = true := by
      rw [isPunctuation_eq, hsymbol, Bool.true_or, Bool.true_or]
    have hquote : c ≠ '"' := by
      rintro rfl
      exact absurd hsymbol (by decide)
    have hunderscore : c ≠ '_' := by
      rintro rfl
      exact absurd hsymbol (by decide)
    exact .symbol hpunctuation hquote hunderscore halone

/-- No part of a text is read as the end of the input. -/
theorem IsLexeme.kind_ne {text after : List Char} {lexeme : Lexeme}
    (hlexeme : IsLexeme keywords text after lexeme) : lexeme.kind ≠ .endOfInput := by
  cases hlexeme with
  | @word text after _ _ =>
    change wordKind keywords text ≠ .endOfInput
    unfold wordKind
    split
    · nofun
    · split <;> nofun
  | _ => nofun

section

variable {text piece after : List Char} {start stop : Nat}

/-- A part that ends where it begins is empty. -/
theorem slice_self (text : List Char) (start : Nat) : slice text start start = [] := by
  rw [slice, Nat.sub_self, List.take_zero]

/-- A part and what stands behind it. -/
theorem slice_append_drop (hle : start ≤ stop) :
    slice text start stop ++ text.drop stop = text.drop start := by
  have hstop : text.drop stop = (text.drop start).drop (stop - start) := by
    rw [List.drop_drop, Nat.add_sub_cancel' hle]
  rw [slice, hstop, List.take_append_drop]

/-- What stands behind a piece at an offset. -/
theorem drop_behind (hdrop : text.drop start = piece ++ after) :
    text.drop (start + piece.length) = after := by
  rw [← List.drop_drop, hdrop, List.drop_left]

/-- What stands before the end of a piece at an offset. -/
theorem take_behind (hdrop : text.drop start = piece ++ after) :
    text.take (start + piece.length) = text.take start ++ piece := by
  rw [List.take_add, hdrop, List.take_left]

/-- A part that begins with a piece. -/
theorem slice_of_drop (hdrop : text.drop start = piece ++ after)
    (hle : start + piece.length ≤ stop) :
    slice text start stop = piece ++ slice text (start + piece.length) stop := by
  rw [slice, slice, hdrop, drop_behind hdrop, List.take_append, List.take_of_length_le (by omega),
    Nat.sub_sub]

/-- No part at all tiles what is empty. -/
theorem Tiled.nil (text : List Char) (start : Nat) : Tiled text start [] start := by
  refine ⟨Nat.le_refl start, ?_⟩
  rw [slice_self]
  exact .nil

/-- A piece without a lexeme may stand before parts that tile the rest of a text. -/
theorem Tiled.of_behind {filler : Piece} {spans : List Span}
    (hfiller : filler.Precedes after) (hnone : filler.lexeme? keywords = none)
    (hdrop : text.drop start = filler.text ++ after)
    (htiled : Tiled text (start + filler.text.length) spans stop) :
      Tiled text start spans stop := by
  have hlengthen : ∀ finish, start + filler.text.length ≤ finish →
      IsGap (slice text (start + filler.text.length) finish) (text.drop finish) →
        IsGap (slice text start finish) (text.drop finish) := by
    intro finish hle hgap
    rw [slice_of_drop hdrop hle]
    refine Piece.Precedes.isGap ?_ hnone hgap
    rwa [slice_append_drop hle, drop_behind hdrop]
  cases spans with
  | nil =>
    obtain ⟨hle, hgap⟩ := htiled
    exact ⟨by omega, hlengthen stop hle hgap⟩
  | cons span rest =>
    obtain ⟨hle, hgap, hrest⟩ := htiled
    exact ⟨by omega, hlengthen span.start hle hgap, hrest⟩

/-- A piece with a lexeme is read as a token at its place. -/
theorem Piece.Precedes.isTokenAt {piece : Piece} {lexeme : Lexeme} (hpiece : piece.Precedes after)
    (hsome : piece.lexeme? keywords = some lexeme) (hdrop : text.drop start = piece.text ++ after) :
    IsTokenAt keywords file text ⟨start, start + piece.text.length⟩
      ⟨lexeme, .behind file (text.take start)⟩ := by
  refine ⟨?_, rfl⟩
  rw [slice_of_drop hdrop (Nat.le_refl _), slice_self, List.append_nil, drop_behind hdrop]
  exact hpiece.isLexeme hsome

/-- The lexemes of a scan tile the text that it passes, and their tokens stand at their places. -/
theorem Scan.Reads.tiled {scan : Scan} {rest : List Char} (hscan : scan.Reads rest) {start : Nat}
    (hdrop : text.drop start = rest) :
    ∃ spans,
      List.Forall₂ (IsTokenAt keywords file text) spans
        (tokensAt keywords (.behind file (text.take start)) scan.pieces) ∧
      Tiled text start spans (start + (textOf scan.pieces).length) := by
  induction hscan generalizing start with
  | ended => exact ⟨[], .nil, .nil text start⟩
  | halted _ => exact ⟨[], .nil, .nil text start⟩
  | @piece piece scan after hpiece hscan ih =>
    have hafter : text.drop (start + piece.text.length) = after := drop_behind hdrop
    obtain ⟨spans, htokens, htiled⟩ := ih hafter
    rw [take_behind hdrop, ← Location.behind_advance] at htokens
    have hlength : start + (textOf (piece :: scan.pieces)).length =
        start + piece.text.length + (textOf scan.pieces).length := by
      rw [textOf, List.flatMap_cons, List.length_append, textOf]
      omega
    rw [hlength]
    cases hlexeme : piece.lexeme? keywords with
    | none =>
      refine ⟨spans, ?_, htiled.of_behind hpiece hlexeme hdrop⟩
      rw [tokensAt]
      simpa only [hlexeme] using htokens
    | some lexeme =>
      have hpositive : 0 < piece.text.length := List.length_pos_iff.mpr hpiece.text_ne_nil
      have htoken : IsTokenAt keywords file text ⟨start, start + piece.text.length⟩
          ⟨lexeme, .behind file (text.take start)⟩ := hpiece.isTokenAt hlexeme hdrop
      have hgap := (Tiled.nil text start).2
      refine ⟨⟨start, start + piece.text.length⟩ :: spans, ?_, Nat.le_refl start, hgap, ?_, htiled⟩
      · rw [tokensAt]
        simpa only [hlexeme] using List.Forall₂.cons htoken htokens
      · exact Nat.lt_add_of_pos_right hpositive

/-- No token that stands for a part of a text is the end of the input. -/
theorem IsTokenAt.kind_ne {spans : List Span} {tokens : List Token}
    (htokens : List.Forall₂ (IsTokenAt keywords file text) spans tokens) :
    ∀ token ∈ tokens, token.kind ≠ .endOfInput := by
  induction htokens with
  | nil => nofun
  | cons hfirst _ ih => exact List.forall_mem_cons.mpr ⟨hfirst.1.kind_ne, ih⟩

end

/-- A fault in a scan is one that the rest of the text shows. -/
theorem Scan.Reads.opens {scan : Scan} {text faulty : List Char} {fault : Fault}
    (hscan : scan.Reads text) (hfault : scan.fault = some (fault, faulty)) :
    fault.Opens faulty := by
  induction hscan with
  | ended => cases hfault
  | halted hopens =>
    cases hfault
    exact hopens
  | piece _ _ ih => exact ih hfault

/-- Where the reading of a text ends that shows a fault behind what is passed. -/
theorem Fault.Opens.ends {fault : Fault} {passed faulty : List Char} {diagnostic : Diagnostic}
    (hfault : fault.Opens faulty) (hpassed : Leads .plain passed .plain faulty)
    (hkind : diagnostic.kind = fault.kind)
    (hlocation : diagnostic.location = some (.behind file passed)) :
    Ends file (passed ++ faulty) passed.length (passed ++ fault.passed faulty).length
      [diagnostic] := by
  have hplace : diagnostic.location =
      some (.behind file ((passed ++ faulty).take passed.length)) := by
    rw [List.take_left, hlocation]
  have hbehind : (passed ++ faulty).drop passed.length = faulty := List.drop_left
  have hforeign := hpassed.isForeignAt_append 0
  cases hfault with
  | unterminatedString hbody => exact .openString hkind hplace hbehind hbody
  | unterminatedComment hbody => exact .openComment hkind hplace hbehind hbody
  | @invalidCharacter c after hblank hword hsymbol hquote =>
    have hopens : (Fault.invalidCharacter c).Opens (c :: after) :=
      .invalidCharacter hblank hword hsymbol hquote
    rw [Fault.passed, List.append_nil]
    exact .foreign hkind hplace (hforeign.mpr hopens.isForeignAt)

/-- What a fault passes is at the beginning of the text that shows it. -/
theorem Fault.passed_prefix (fault : Fault) (text : List Char) : fault.passed text <+: text := by
  cases fault with
  | invalidCharacter c => exact List.nil_prefix
  | _ => exact List.prefix_rfl

section Scanned

variable {source : String} {pieces : List Piece} (keywords : List String) (file : String)

/-- The tokens of a source that is scanned to its end. -/
theorem tokenize_of_scan (hscan : scan source.toList = ⟨pieces, none⟩) :
    tokenize source keywords file =
      (tokensAt keywords (.start file) pieces ++ [.ending (.behind file (textOf pieces))], []) := by
  have hreached : (Location.start file).advance (textOf pieces) = .behind file (textOf pieces) :=
    Location.behind_advance file [] _
  simp only [tokenize, tokenization, Tokenization.complete, Tokenization.reportTo, hscan, hreached]
  rfl

/-- The tokens of a source with a fault, and the diagnostic for it. -/
theorem tokenize_of_fault {fault : Fault} {faulty : List Char}
    (hscan : scan source.toList = ⟨pieces, some (fault, faulty)⟩) :
    tokenize source keywords file =
      (tokensAt keywords (.start file) pieces ++
          [.ending (.behind file (textOf pieces ++ fault.passed faulty))],
        [.make (some (Diagnostic.linesOf source)) fault.kind fault.message
          (some (.behind file (textOf pieces)))]) := by
  have hreached : (Location.start file).advance (textOf pieces) = .behind file (textOf pieces) :=
    Location.behind_advance file [] _
  rw [← Location.behind_advance]
  simp only [tokenize, tokenization, Tokenization.complete, Tokenization.reportTo, hscan, hreached]
  rfl

end Scanned

/-- The end token of a source stands behind what is scanned and behind what a fault there passes,
and that fault is all that is reported. -/
theorem tokenize_ends (source : String) (keywords : List String) (file : String) :
    let text := source.toList
    let pieces := (scan text).pieces
    ∃ stop, (tokenize source keywords file).1 =
        tokensAt keywords (.start file) pieces ++ [.ending (.behind file (text.take stop))] ∧
      (textOf pieces).length ≤ stop ∧ stop ≤ text.length ∧
      Ends file text (textOf pieces).length stop (tokenize source keywords file).2 := by
  intro text pieces
  have hscan : (scan text).Reads text := scan_reads text
  have htext : text = textOf pieces ++ (scan text).rest := hscan.text_eq
  have hleads : Leads .plain (textOf pieces) .plain (scan text).rest := hscan.leads
  rcases hfault : (scan text).fault with _ | ⟨fault, faulty⟩
  · have hscanned : scan source.toList = ⟨pieces, none⟩ := by rw [← hfault]
    have hrest : (scan text).rest = [] := by rw [Scan.rest, hfault]
    rw [hrest, List.append_nil] at htext
    rw [tokenize_of_scan keywords file hscanned, ← htext]
    refine ⟨text.length, ?_, Nat.le_refl _, Nat.le_refl _, .complete⟩
    rw [List.take_length]
  · have hscanned : scan source.toList = ⟨pieces, some (fault, faulty)⟩ := by rw [← hfault]
    have hrest : (scan text).rest = faulty := by rw [Scan.rest, hfault]
    rw [hrest] at htext hleads
    have hprefix : textOf pieces ++ fault.passed faulty <+: text := by
      rw [htext]
      exact (List.prefix_append_right_inj _).mpr (fault.passed_prefix faulty)
    have hends := @Fault.Opens.ends file fault (textOf pieces) faulty
      (Diagnostic.make (some (Diagnostic.linesOf source)) fault.kind fault.message
        (some (.behind file (textOf pieces)))) (hscan.opens hfault) hleads rfl rfl
    rw [tokenize_of_fault keywords file hscanned]
    refine ⟨(textOf pieces ++ fault.passed faulty).length, ?_, ?_, hprefix.length_le, ?_⟩
    · rw [← List.prefix_iff_eq_take.mp hprefix]
    · rw [List.length_append]
      exact Nat.le_add_right _ _
    · rw [htext]
      exact hends

/-- The tokens of every source tile it: they are the lexemes of parts of it that follow one
another, each at the place of its part, and nothing but gaps is left between them. They are
followed by one end token. Either all of the source is read and nothing is reported, or one fault
is reported behind the tiled part: the first foreign character, where the end token stands, or the
beginning of a quoted text or comment without an end, with the end token at the end of the source.
-/
theorem tokenize_tiles (source : String) (keywords : List String) (file : String) :
    let text := source.toList
    let (tokens, diagnostics) := tokenize source keywords file
    ∃ spans reached stop, ∃ inner : List Token,
      tokens = inner ++ [.ending (.behind file (text.take stop))] ∧
      (∀ token ∈ inner, token.kind ≠ .endOfInput) ∧
      List.Forall₂ (IsTokenAt keywords file text) spans inner ∧
      Tiled text 0 spans reached ∧ reached ≤ stop ∧ stop ≤ text.length ∧
      (∀ offset < reached, ¬IsForeignAt text offset) ∧
      Ends file text reached stop diagnostics := by
  intro text
  have hscan : (scan text).Reads text := scan_reads text
  obtain ⟨spans, htokens, htiled⟩ := @Scan.Reads.tiled keywords file text _ _ hscan 0 rfl
  obtain ⟨stop, hcomplete, hreached, hstop, hends⟩ := tokenize_ends source keywords file
  have hknown : ∀ offset < (textOf (scan text).pieces).length, ¬IsForeignAt text offset := by
    intro offset hoffset
    rw [hscan.text_eq]
    exact hscan.leads.not_isForeignAt hoffset
  rw [Nat.zero_add] at htiled
  exact ⟨spans, _, stop, _, hcomplete, IsTokenAt.kind_ne htokens, htokens, htiled, hreached, hstop,
    hknown, hends⟩

end Source

end BraceLang
