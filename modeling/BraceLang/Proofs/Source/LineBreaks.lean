import BraceLang.Proofs.Source.Seams

/-!
# Sources one behind the other

A line feed ends whatever may be pending where it stands: a word, a point that could begin a
fraction, the first character of an operator, a comment on a line. So the lines behind a source that
is read to its end are read as if they stood alone, and everything about them is found further down
by the lines that the source takes.
-/

namespace BraceLang

/-- The lines of a text are what stands between its line feeds. -/
theorem Text.lines_eq_splitOn (text : List Char) : lines text = text.splitOn '\n' := by
  change lines text = text.splitOnP (· == '\n')
  induction text with
  | nil => rfl
  | cons c rest ih =>
    rw [lines, List.splitOnP_cons_eq_if_modifyHead, ← ih]
    simp only [beq_iff_eq]
    split
    · rfl
    · cases hlines : lines rest with
      | nil => exact absurd hlines (lines_ne_nil rest)
      | cons line more => rfl

/-- The lines on either side of a line feed. -/
theorem Text.lines_append_lineBreak (text more : List Char) :
    lines (text ++ '\n' :: more) = lines text ++ lines more := by
  rw [lines_eq_splitOn, lines_eq_splitOn, lines_eq_splitOn]
  exact List.splitOnP_append_cons text more rfl

/-- The characters of two texts with a line feed between them. -/
theorem Text.toList_append_lineBreak (first second : String) :
    (first ++ "\n" ++ second).toList = first.toList ++ '\n' :: second.toList := by
  simp

/-- The same place some lines further down. -/
def Location.down (lines : Nat) (location : Location) : Location :=
  { location with line := location.line + lines }

/-- The same token some lines further down. -/
def Token.down (lines : Nat) (token : Token) : Token :=
  { token with location := token.location.down lines }

/-- The same diagnostic about a place some lines further down. -/
def Diagnostic.down (lines : Nat) (diagnostic : Diagnostic) : Diagnostic :=
  { diagnostic with location := diagnostic.location.map (·.down lines) }

/-- A text leads as far from a place further down. -/
theorem Location.advance_down (lines : Nat) (location : Location) (text : List Char) :
    (location.down lines).advance text = (location.advance text).down lines := by
  induction text generalizing location with
  | nil => rfl
  | cons c rest ih =>
    have hnext : (location.down lines).next c = (location.next c).down lines := by
      by_cases hfeed : c = '\n'
      · simp only [next, down, if_pos hfeed, Location.mk.injEq, and_true]
        omega
      · simp only [next, down, if_neg hfeed]
    rw [advance, List.foldl_cons, hnext]
    exact ih (location.next c)

/-- Passing a line feed behind a text leads to the beginning of a line. -/
theorem Location.behind_lineBreak (file : String) (text : List Char) :
    behind file (text ++ ['\n']) = (start file).down (1 + text.count '\n') := by
  have hnext := behind_next file text '\n'
  rw [← hnext, next, if_pos rfl]
  simp only [behind, start, down, Location.mk.injEq, and_true]
  omega

/-- The lines of a text are found further down where others stand in front of it. -/
theorem Diagnostic.snippetIn_append_lineBreak (first second : String) {line : Int}
    (hline : 1 ≤ line) :
    snippetIn (linesOf (first ++ "\n" ++ second)) (line + (1 + first.toList.count '\n' : Nat)) =
      snippetIn (linesOf second) line := by
  have hlines : linesOf (first ++ "\n" ++ second) = linesOf first ++ linesOf second := by
    rw [linesOf, Text.toList_append_lineBreak, Text.lines_append_lineBreak, linesOf, linesOf,
      List.append_toArray]
  have hsize : (linesOf first).size = 1 + first.toList.count '\n' := by
    rw [linesOf, List.size_toArray, Text.lines_length, Nat.add_comm]
  have hindex : (line + (1 + first.toList.count '\n' : Nat) - 1).toNat =
      (linesOf first).size + (line - 1).toNat := by
    omega
  rw [snippetIn, snippetIn, if_neg (by omega), if_neg (by omega), hlines, hindex,
    Array.getElem?_append_right (by omega), Nat.add_sub_cancel_left]

/-- A diagnostic about a place further down shows the same line and points to the same column. -/
theorem Diagnostic.make_append_lineBreak (first second : String) (kind : DiagnosticKind)
    (message : String) {place : Location} (hline : 1 ≤ place.line) :
    make (some (linesOf (first ++ "\n" ++ second))) kind message
        (some (place.down (1 + first.toList.count '\n'))) =
      (make (some (linesOf second)) kind message (some place)).down
        (1 + first.toList.count '\n') := by
  rw [make, make, down, Option.map_some, Location.down,
    snippetIn_append_lineBreak first second hline]

namespace Source

section Scans

variable {afterWord : Bool} {text more : List Char}

/-- A line feed goes on no word, number, operator or comment. -/
theorem Detached.lineBreak (more : List Char) : Detached ('\n' :: more) := by
  rintro _ ⟨⟩
  exact ⟨by decide, by decide, fun first => isOperator_of_isBlank first (by decide)⟩

/-- A piece is read as without the lines behind it. -/
theorem nextPiece_append_lineBreak {c : Char} {rest after : List Char} {piece : Piece}
    (hpiece : nextPiece afterWord c rest = .ok (piece, after)) (more : List Char) :
    nextPiece afterWord c (rest ++ '\n' :: more) = .ok (piece, after ++ '\n' :: more) := by
  refine nextPiece_append (.lineBreak more) (by simp) hpiece ?_
  rintro body rfl
  have hstep := nextPiece_reads afterWord c rest
  rw [hpiece] at hstep
  obtain ⟨-, hprecedes⟩ := hstep
  cases hprecedes with
  | lineComment _ hend =>
    intro d hhead
    cases after with
    | nil => exact (Option.some.inj hhead).symm
    | cons e behind => exact hend d hhead

/-- Fuel beyond the length of a text is not used. -/
theorem scanFrom_of_length_le {fuel enough : Nat} (hfuel : text.length ≤ fuel)
    (henough : text.length ≤ enough) :
    scanFrom fuel afterWord text = scanFrom enough afterWord text := by
  induction fuel generalizing enough text afterWord with
  | zero =>
    obtain rfl : text = [] := List.length_eq_zero_iff.mp (Nat.le_zero.mp hfuel)
    cases enough <;> rfl
  | succ fuel ih =>
    cases text with
    | nil => cases enough <;> rfl
    | cons c rest =>
      cases enough with
      | zero => exact absurd henough (Nat.not_succ_le_zero _)
      | succ enough =>
        rw [scanFrom, scanFrom]
        rcases hpiece : nextPiece afterWord c rest with fault | ⟨piece, after⟩
        · rfl
        · have hshorter := length_lt_of_nextPiece hpiece
          have hsame := @ih piece.isWord after enough (by omega) (by omega)
          simp only [hsame]

/-- A text that is read without a fault is followed by a line feed, and that by what is read in the
lines behind it. -/
theorem scanFrom_append_lineBreak {fuel : Nat} {pieces : List Piece}
    (hfuel : (text ++ '\n' :: more).length ≤ fuel)
    (hscan : scanFrom fuel afterWord text = ⟨pieces, none⟩) :
    scanFrom fuel afterWord (text ++ '\n' :: more) =
      ⟨pieces ++ .blank '\n' :: (scan more).pieces, (scan more).fault⟩ := by
  induction fuel generalizing text afterWord pieces with
  | zero => simp at hfuel
  | succ fuel ih =>
    rw [List.length_append, List.length_cons] at hfuel
    cases text with
    | nil =>
      obtain ⟨rfl, -⟩ := Scan.mk.inj hscan
      have hrest : scanFrom fuel false more = scan more :=
        scanFrom_of_length_le (by omega) (Nat.le_refl _)
      have hfeed : Unicode.isBlank '\n' = true := by decide
      rw [List.nil_append, scanFrom, nextPiece_blank afterWord hfeed]
      simp only [Piece.isWord, hrest, List.nil_append]
    | cons c rest =>
      rw [scanFrom] at hscan
      rw [List.cons_append, scanFrom]
      rcases hpiece : nextPiece afterWord c rest with fault | ⟨piece, after⟩
      · rw [hpiece] at hscan
        cases hscan
      · have hshorter := length_lt_of_nextPiece hpiece
        rw [List.length_cons] at hfuel hshorter
        rcases hafter : scanFrom fuel piece.isWord after with ⟨others, fault⟩
        simp only [hpiece, hafter] at hscan
        obtain ⟨rfl, rfl⟩ := Scan.mk.inj hscan
        have hrest := @ih piece.isWord after others
          (by rw [List.length_append, List.length_cons]; omega) hafter
        rw [nextPiece_append_lineBreak hpiece more]
        simp only [hrest, List.cons_append]

end Scans

section Tokens

variable (keywords : List String)

/-- The tokens of pieces one behind the other. -/
theorem tokensAt_append (location : Location) (first second : List Piece) :
    tokensAt keywords location (first ++ second) =
      tokensAt keywords location first ++
        tokensAt keywords (location.advance (textOf first)) second := by
  induction first generalizing location with
  | nil => rfl
  | cons piece rest ih =>
    have htext : textOf (piece :: rest) = piece.text ++ textOf rest := List.flatMap_cons
    rw [List.cons_append, tokensAt, tokensAt, ih, htext, Location.advance_append]
    cases piece.lexeme? keywords <;> rfl

/-- The tokens of pieces that begin further down. -/
theorem tokensAt_down (lines : Nat) (location : Location) (pieces : List Piece) :
    tokensAt keywords (location.down lines) pieces =
      (tokensAt keywords location pieces).map (·.down lines) := by
  induction pieces generalizing location with
  | nil => rfl
  | cons piece rest ih =>
    rw [tokensAt, tokensAt, Location.advance_down, ih]
    cases piece.lexeme? keywords <;> rfl

variable {keywords} {file : String}

/-- The tokens of a source without a fault are followed by those of the lines behind it. -/
theorem tokenization_append_lineBreak {first : String}
    (hclean : (tokenization first keywords file).fault = none) (second : String) :
    let lines := 1 + first.toList.count '\n'
    let behind := tokenization second keywords file
    tokenization (first ++ "\n" ++ second) keywords file =
      { tokens := (tokenization first keywords file).tokens ++ behind.tokens.map (·.down lines)
        stop := behind.stop.down lines
        fault := behind.fault.map fun (fault, place) => (fault, place.down lines) } := by
  intro lines behind
  rcases hpieces : scan first.toList with ⟨pieces, fault⟩
  obtain rfl : fault = none := by simpa [tokenization, hpieces] using hclean
  have hscan : scan (first.toList ++ '\n' :: second.toList) =
      ⟨pieces ++ .blank '\n' :: (scan second.toList).pieces, (scan second.toList).fault⟩ := by
    refine scanFrom_append_lineBreak (Nat.le_refl _) ?_
    rw [← hpieces]
    exact scanFrom_of_length_le (by simp) (Nat.le_refl _)
  have hpassed : textOf pieces = first.toList := by
    have hreads := (scan_reads first.toList).text_eq
    rw [hpieces, Scan.rest, List.append_nil] at hreads
    exact hreads.symm
  have hplace : (Location.start file).advance (first.toList ++ ['\n']) =
      (Location.start file).down lines := by
    rw [← Location.behind_lineBreak]
    exact Location.behind_advance file [] _
  have hreached : (Location.start file).advance
        (textOf (pieces ++ .blank '\n' :: (scan second.toList).pieces)) =
      ((Location.start file).advance (textOf (scan second.toList).pieces)).down lines := by
    have htext : textOf (pieces ++ .blank '\n' :: (scan second.toList).pieces) =
        (first.toList ++ ['\n']) ++ textOf (scan second.toList).pieces := by
      simp [textOf, ← hpassed, Piece.text]
    rw [htext, Location.advance_append, hplace, Location.advance_down]
  have htokens : tokensAt keywords (.start file)
        (pieces ++ .blank '\n' :: (scan second.toList).pieces) =
      tokensAt keywords (.start file) pieces ++
        (tokensAt keywords (.start file) (scan second.toList).pieces).map (·.down lines) := by
    rw [tokensAt_append, hpassed, tokensAt, ← tokensAt_down, ← hplace, Location.advance_append]
    rfl
  rw [tokenization, Text.toList_append_lineBreak, hscan]
  simp only [hreached, htokens]
  simp only [behind, tokenization, hpieces]
  cases (scan second.toList).fault with
  | none => rfl
  | some found =>
    obtain ⟨fault, faulty⟩ := found
    simp only [Location.advance_down, Option.map_some]

/-- A fault of a source is on one of its lines, which are counted from one. -/
theorem one_le_line_of_fault {source : String} {fault : Fault} {place : Location}
    (hfault : (tokenization source keywords file).fault = some (fault, place)) :
    1 ≤ place.line := by
  obtain ⟨found, -, hfound⟩ := Option.map_eq_some_iff.mp hfault
  obtain ⟨-, rfl⟩ := Prod.mk.inj hfound
  have hplace := Location.behind_advance file [] (textOf (scan source.toList).pieces)
  change 1 ≤ ((Location.behind file []).advance _).line
  rw [hplace]
  simp only [Location.behind]
  omega

/-- Without a diagnostic there is no fault. -/
theorem fault_eq_none {source : String} (hclean : (tokenize source keywords file).2 = []) :
    (tokenization source keywords file).fault = none := by
  cases hfault : (tokenization source keywords file).fault with
  | none => rfl
  | some found =>
    simp [tokenize, Tokenization.reportTo, hfault, Diagnostic.Collector.report,
      Diagnostic.Collector.reportAll] at hclean

/-- None of the tokens that are read marks the end. -/
theorem kind_ne_of_mem_tokenization {source : String} {token : Token}
    (hmem : token ∈ (tokenization source keywords file).tokens) : token.kind ≠ .endOfInput := by
  obtain ⟨spans, htokens, -⟩ :=
    @Scan.Reads.tiled keywords file source.toList _ _ (scan_reads source.toList) 0 rfl
  exact IsTokenAt.kind_ne htokens token hmem

end Tokens

/-- Sources are read apart at a line feed. Where a source is read without a diagnostic and is
followed by a line feed and another source, the tokens are those of the first source, without the
one that marks its end, and behind them those of the second one further down; and the diagnostics
are those of the second one further down, with the same lines and pointers. -/
theorem tokenize_append_lineBreak {first : String} {keywords : List String} {file : String}
    (hclean : (tokenize first keywords file).2 = []) (second : String) :
    let lines := 1 + first.toList.count '\n'
    tokenize (first ++ "\n" ++ second) keywords file =
      ((tokenize first keywords file).1.filter (·.kind != .endOfInput) ++
          (tokenize second keywords file).1.map (·.down lines),
        (tokenize second keywords file).2.map (·.down lines)) := by
  intro lines
  have hboth := tokenization_append_lineBreak (fault_eq_none hclean) second
  have hown : (tokenize first keywords file).1.filter (·.kind != .endOfInput) =
      (tokenization first keywords file).tokens := by
    have hkinds : ∀ token ∈ (tokenization first keywords file).tokens,
        (token.kind != .endOfInput) = true :=
      fun token hmem => bne_iff_ne.mpr (kind_ne_of_mem_tokenization hmem)
    change List.filter _ (_ ++ [Token.ending _]) = _
    rw [List.filter_append, List.filter_eq_self.mpr hkinds]
    exact List.append_nil _
  rw [hown]
  simp only [tokenize, hboth]
  refine Prod.ext ?_ ?_
  · simp only [Tokenization.complete, List.replicate_one, List.map_append, List.append_assoc]
    rfl
  · cases hfault : (tokenization second keywords file).fault with
    | none => simp [Tokenization.reportTo, hfault, Diagnostic.Collector.empty]
    | some found =>
      obtain ⟨fault, place⟩ := found
      have hmake := Diagnostic.make_append_lineBreak first second fault.kind fault.message
        (one_le_line_of_fault hfault)
      simp only [Tokenization.reportTo, hfault, Option.map_some]
      exact congrArg (fun diagnostic => [diagnostic]) hmake

/-- Behind a comment that the source does not end, a quoted text is open on the second line. -/
theorem tokenize_append_lineBreak_open :
    let openText (line : Int) : Diagnostic :=
      ⟨.unterminatedString, "Unterminated string literal", some ⟨line, 1, "main"⟩, "\"", "^"⟩
    (tokenize "x // y" ["let"] "main").2 = [] ∧
    tokenize ("x // y" ++ "\n" ++ "\"") ["let"] "main" =
      ([⟨⟨.identifier, "x"⟩, ⟨1, 1, "main"⟩⟩, .ending ⟨2, 2, "main"⟩], [openText 2]) := by
  intro openText
  have hfirst : tokenize "x // y" ["let"] "main" =
      ([⟨⟨.identifier, "x"⟩, ⟨1, 1, "main"⟩⟩, .ending ⟨1, 7, "main"⟩], []) := rfl
  have hsecond : tokenize "\"" ["let"] "main" = ([.ending ⟨1, 2, "main"⟩], [openText 1]) := rfl
  have hclean : (tokenize "x // y" ["let"] "main").2 = [] := by rw [hfirst]
  refine ⟨hclean, (tokenize_append_lineBreak hclean "\"").trans ?_⟩
  rw [hfirst, hsecond]
  rfl

end Source

end BraceLang
