import BraceLang.Proofs.Parsing.Stages
import BraceLang.Proofs.Recovery.Resynchronisation
import BraceLang.Proofs.Source.LineBreaks

/-!
# Diagnostics point at what they are about

The place of a token is counted while a source is read, character by character; the line that a
diagnostic shows is found by splitting the source at its line feeds. Both ways come to the same line
and the same column, so the pointer of a diagnostic is below the first character of the token or the
fault that it is reported on. Only the end of an input has no such character.
-/

namespace BraceLang

section Lines

variable {before after shown : List Char} {c : Char} {index : Nat}

/-- The first line of a text goes up to the first line feed. -/
theorem Text.head?_lines (text : List Char) :
    (lines text).head? = some (text.takeWhile (· != '\n')) := by
  induction text with
  | nil => rfl
  | cons c rest ih =>
    by_cases hfeed : c = '\n'
    · simp [lines, hfeed]
    · cases hlines : lines rest with
      | nil => exact absurd hlines (lines_ne_nil rest)
      | cons first more =>
        rw [hlines] at ih
        simpa [lines, hfeed, hlines] using ih

/-- In front of the line of a place there are as many lines as line feeds, and the line goes from
the last of these to the next one. -/
theorem Text.getElem?_lines (before after : List Char) :
    (lines (before ++ after))[before.count '\n']? =
      some (before.rtakeWhile (· != '\n') ++ after.takeWhile (· != '\n')) := by
  induction before using List.reverseRecOn generalizing after with
  | nil => exact List.head?_eq_getElem?.symm.trans (head?_lines after)
  | append_singleton before c ih =>
    rw [List.append_assoc, List.singleton_append]
    by_cases hfeed : c = '\n'
    · subst hfeed
      have hlength := lines_length before
      rw [lines_append_lineBreak, List.count_append, List.count_singleton_self, ← hlength,
        List.getElem?_append_right (Nat.le_refl _), Nat.sub_self, ← List.head?_eq_getElem?,
        head?_lines, List.rtakeWhile_concat_neg (· != '\n') before '\n' (by decide),
        List.nil_append]
    · have hother : (c != '\n') = true := bne_iff_ne.mpr hfeed
      rw [List.count_append, List.count_singleton, if_neg (by simpa using hfeed), Nat.add_zero, ih,
        List.rtakeWhile_concat_pos (· != '\n') before c hother,
        List.takeWhile_cons_of_pos (p := (· != '\n')) hother, List.append_assoc,
        List.singleton_append]

/-- No other character goes with the carriage return at the end of a line. -/
theorem Text.getElem?_withoutReturn (hchar : shown[index]? = some c) (hreturn : c ≠ '\r') :
    (withoutReturn shown)[index]? = some c := by
  unfold withoutReturn
  split
  · next hlast =>
    obtain ⟨inner, rfl⟩ := List.getLast?_eq_some_iff.mp hlast
    rw [List.dropLast_concat]
    rcases Nat.lt_trichotomy index inner.length with hinside | rfl | hbeyond
    · rwa [List.getElem?_append_left hinside] at hchar
    · rw [List.getElem?_concat_length] at hchar
      exact absurd (Option.some.inj hchar).symm hreturn
    · rw [List.getElem?_eq_none (by simp; omega)] at hchar
      cases hchar
  · exact hchar

end Lines

/-- A diagnostic about a place that is counted in a text: it holds the line of the place, without a
carriage return at its end, and a pointer below its column. -/
structure Diagnostic.Points (diagnostic : Diagnostic) (file : String) (text : List Char)
    (place : Location) : Prop where
  location : diagnostic.location = some place
  counted : ∃ before, before <+: text ∧ place = .behind file before
  line : 1 ≤ place.line ∧ place.line ≤ (text.splitOn '\n').length
  column : 1 ≤ place.column
  pointer : diagnostic.pointer.toList = List.replicate (place.column - 1).toNat ' ' ++ ['^']
  snippet : ∃ line, (text.splitOn '\n')[(place.line - 1).toNat]? = some line ∧
    diagnostic.snippet.toList = Text.withoutReturn line

/-- A diagnostic whose pointer is below a character of its line. -/
structure Diagnostic.PointsTo (diagnostic : Diagnostic) (place : Location) (c : Char) : Prop where
  inside : place.column ≤ diagnostic.snippet.length
  shown : diagnostic.snippet.toList[(place.column - 1).toNat]? = some c

section Counted

variable (file : String) (before : List Char)

/-- Lines are counted from one, by the line feeds. -/
theorem Location.line_behind :
    1 ≤ (behind file before).line ∧ ((behind file before).line - 1).toNat = before.count '\n' := by
  simp only [behind]
  omega

/-- Columns are counted from one, by the characters behind the last line feed. -/
theorem Location.column_behind :
    1 ≤ (behind file before).column ∧
      ((behind file before).column - 1).toNat = (before.rtakeWhile (· != '\n')).length := by
  simp only [behind]
  omega

end Counted

section Made

variable {source : String} {before after : List Char} {c : Char} {kind : DiagnosticKind}
  {message file : String}

/-- The line that a diagnostic about a source shows. -/
theorem Diagnostic.snippet_make (hsource : source.toList = before ++ after) :
    (make (some (linesOf source)) kind message (some (.behind file before))).snippet.toList =
      Text.withoutReturn (before.rtakeWhile (· != '\n') ++ after.takeWhile (· != '\n')) := by
  obtain ⟨hline, hindex⟩ := Location.line_behind file before
  rw [make, snippetIn, if_neg (by omega), hindex, linesOf, List.getElem?_toArray, hsource,
    Text.getElem?_lines]
  exact String.toList_ofList

/-- A diagnostic about a place that is counted in a source shows the line of that place. -/
theorem Diagnostic.make_points (hsource : source.toList = before ++ after) :
    (make (some (linesOf source)) kind message (some (.behind file before))).Points file
      source.toList (.behind file before) := by
  obtain ⟨hline, hindex⟩ := Location.line_behind file before
  obtain ⟨hcolumn, -⟩ := Location.column_behind file before
  have hlines := Text.lines_length source.toList
  have hcount : before.count '\n' ≤ source.toList.count '\n' := by
    rw [hsource, List.count_append]
    exact Nat.le_add_right _ _
  refine ⟨rfl, ⟨before, ⟨after, hsource.symm⟩, rfl⟩, ⟨hline, ?_⟩, hcolumn, ?_, _, ?_,
    snippet_make hsource⟩
  · rw [← Text.lines_eq_splitOn, hlines]
    omega
  · rw [make, caret, String.toList_ofList]
  · rw [← Text.lines_eq_splitOn, hindex, hsource, Text.getElem?_lines]

/-- Where the place is that of a visible character, the pointer is below that character. -/
theorem Diagnostic.make_pointsTo (hsource : source.toList = before ++ c :: after)
    (hblank : Unicode.isBlank c = false) :
    (make (some (linesOf source)) kind message (some (.behind file before))).PointsTo
      (.behind file before) c := by
  have hfeed : (c != '\n') = true := by
    refine bne_iff_ne.mpr ?_
    rintro rfl
    exact absurd hblank (by decide)
  have hreturn : c ≠ '\r' := by
    rintro rfl
    exact absurd hblank (by decide)
  obtain ⟨hcolumn, hindex⟩ := Location.column_behind file before
  have hshown : (make (some (linesOf source)) kind message
      (some (.behind file before))).snippet.toList[(before.rtakeWhile (· != '\n')).length]? =
        some c := by
    rw [snippet_make hsource, List.takeWhile_cons_of_pos (p := (· != '\n')) hfeed]
    refine Text.getElem?_withoutReturn ?_ hreturn
    rw [List.getElem?_append_right (Nat.le_refl _), Nat.sub_self, List.getElem?_cons_zero]
  refine ⟨?_, hindex ▸ hshown⟩
  have hlength := (List.getElem?_eq_some_iff.mp hshown).1
  rw [String.length_toList] at hlength
  omega

end Made

/-- The character that a lexeme is written with first. -/
def Lexeme.opening (lexeme : Lexeme) : Option Char :=
  if lexeme.kind = .string then some '"' else lexeme.text.toList.head?

/-- The character that a fault begins with. -/
def Source.Fault.opening : Fault → Char
  | .unterminatedString => '"'
  | .unterminatedComment => '/'
  | .invalidCharacter c => c

/-- What a diagnostic of a source is reported on. -/
inductive Diagnostic.Subject where
  | token (token : Token)
  | fault (fault : Source.Fault)
  deriving DecidableEq, Repr

namespace Diagnostic.Subject

/-- Whether a diagnostic is reported on the end of an input. -/
def isEnd : Subject → Bool
  | .token found => found.kind == .endOfInput
  | .fault _ => false

/-- The character that the subject of a diagnostic is written with first. -/
def opening : Subject → Option Char
  | .token found => found.toLexeme.opening
  | .fault found => some found.opening

end Diagnostic.Subject

/-- A diagnostic is reported on a token if it names it and is about its place, and on a fault if it
is of its kind, has its wording and is about the place where the text goes on with it. -/
inductive Diagnostic.IsOn (file : String) (text : List Char) (tokens : List Token)
    (diagnostic : Diagnostic) : Subject → Prop
  | token {token : Token} {complaint : Complaint} : token ∈ tokens →
    diagnostic.kind = .unexpectedToken → diagnostic.message = complaint.message →
      complaint.found = token.found → diagnostic.location = some token.location →
        IsOn file text tokens diagnostic (.token token)
  | fault {fault : Source.Fault} {before after : List Char} : text = before ++ after →
    fault.Opens after → diagnostic.kind = fault.kind → diagnostic.message = fault.message →
      diagnostic.location = some (.behind file before) →
        IsOn file text tokens diagnostic (.fault fault)

/-- A diagnostic about the place of what it is reported on. Unless that is the end of the input, the
pointer is below the character that it is written with first. -/
def Diagnostic.PointsAtText (diagnostic : Diagnostic) (file : String) (text : List Char)
    (tokens : List Token) : Prop :=
  ∃ place subject, diagnostic.Points file text place ∧
    diagnostic.IsOn file text tokens subject ∧
    (subject.isEnd = true ∨ ∃ c, subject.opening = some c ∧ diagnostic.PointsTo place c)

namespace Source

variable {keywords : List String} {file source : String}

/-- What is read as a lexeme begins with the character that the lexeme is written with first, and
that is no white space. -/
theorem IsLexeme.opening {text after : List Char} {lexeme : Lexeme}
    (hlexeme : IsLexeme keywords text after lexeme) :
    ∃ c rest, text = c :: rest ∧ lexeme.opening = some c ∧ Unicode.isBlank c = false := by
  cases hlexeme with
  | @word text after hword _ =>
    have hkind : wordKind keywords text ≠ .string := by
      unfold wordKind
      split
      · nofun
      · split <;> nofun
    cases text with
    | nil => exact absurd rfl hword.ne_nil
    | cons c rest =>
      refine ⟨c, rest, rfl, by simp [Lexeme.opening, hkind], ?_⟩
      rcases hword.head rfl with hchar | rfl
      · refine Bool.eq_false_iff.mpr fun hblank => ?_
        rw [isWordChar_of_isBlank hblank] at hchar
        cases hchar
      · decide
  | @string body _ _ _ => exact ⟨'"', body ++ ['"'], rfl, rfl, by decide⟩
  | @operator first second _ hoperator =>
    have hblank : Unicode.isBlank first = false := of_isOperator hoperator (by decide)
    exact ⟨first, [second], rfl, by simp [Lexeme.opening], hblank⟩
  | @symbol c _ hpunctuation hquote hunderscore _ =>
    have hsymbol := isSymbol_of_isPunctuation hpunctuation hquote hunderscore
    exact ⟨c, [], rfl, by simp [Lexeme.opening], (isSymbol_excludes hsymbol).2⟩

/-- A fault begins with a character that is no white space. -/
theorem Fault.Opens.opening {fault : Fault} {text : List Char} (hfault : fault.Opens text) :
    ∃ rest, text = fault.opening :: rest ∧ Unicode.isBlank fault.opening = false := by
  cases hfault with
  | unterminatedString _ => exact ⟨_, rfl, by decide⟩
  | unterminatedComment _ => exact ⟨_, rfl, by decide⟩
  | invalidCharacter hblank _ _ _ => exact ⟨_, rfl, hblank⟩

/-- A token stands where the source has the character that it is written with first. -/
theorem opening_of_mem_tokenization {token : Token}
    (hmem : token ∈ (tokenization source keywords file).tokens) :
    ∃ before c after, source.toList = before ++ c :: after ∧
      token.location = .behind file before ∧ token.toLexeme.opening = some c ∧
        Unicode.isBlank c = false := by
  obtain ⟨spans, htokens, -⟩ :=
    @Scan.Reads.tiled keywords file source.toList _ _ (scan_reads source.toList) 0 rfl
  obtain ⟨index, hindex, rfl⟩ := List.getElem_of_mem hmem
  obtain ⟨hlexeme, hplace⟩ := htokens.get (htokens.length_eq ▸ hindex) hindex
  obtain ⟨c, rest, hslice, hopening, hblank⟩ := hlexeme.opening
  generalize spans.get ⟨index, _⟩ = span at hslice hplace
  rw [slice] at hslice
  have hsplit := List.take_append_drop (span.stop - span.start) (source.toList.drop span.start)
  rw [hslice] at hsplit
  have hsource := List.take_append_drop span.start source.toList
  rw [← hsplit, List.cons_append] at hsource
  exact ⟨_, c, _, hsource.symm, hplace, hopening, hblank⟩

/-- The end token of a source stands behind a part of it. -/
theorem exists_before_stop (source : String) (keywords : List String) (file : String) :
    ∃ before after, source.toList = before ++ after ∧
      (tokenization source keywords file).stop = .behind file before := by
  obtain ⟨stop, hcomplete, -, -, -⟩ := tokenize_ends source keywords file
  refine ⟨_, _, (List.take_append_drop stop source.toList).symm, ?_⟩
  have hlast := List.append_cancel_left hcomplete
  exact congrArg Token.location (List.singleton_inj.mp hlast)

/-- A fault is found where the source goes on with it. -/
theorem opens_of_fault {fault : Fault} {place : Location}
    (hfault : (tokenization source keywords file).fault = some (fault, place)) :
    ∃ before after, source.toList = before ++ after ∧ place = .behind file before ∧
      fault.Opens after := by
  obtain ⟨⟨found, faulty⟩, hscan, hfound⟩ := Option.map_eq_some_iff.mp hfault
  obtain ⟨rfl, rfl⟩ := Prod.mk.inj hfound
  have hreads := scan_reads source.toList
  have htext := hreads.text_eq
  rw [Scan.rest, hscan] at htext
  exact ⟨_, faulty, htext, Location.behind_advance file [] _, hreads.opens hscan⟩

end Source

/-- The token where so many are unread is one of the tokens, if these have an end. -/
theorem Input.tokenAt_mem {tokens : List Token} {last : Token} (left : Nat)
    (hmem : last ∈ tokens) (hlast : isInside last = false) :
    (ofTokens tokens).tokenAt left ∈ tokens := by
  have hfront := List.takeWhile_prefix isInside (l := tokens)
  have hsize : (ofTokens tokens).tokens.size = (tokens.takeWhile isInside).length := by
    simp [ofTokens]
  have hshorter : (tokens.takeWhile isInside).length < tokens.length := by
    refine Nat.lt_of_le_of_ne hfront.length_le fun hlength => ?_
    have hinside := List.takeWhile_eq_self_iff.mp (hfront.eq_of_length hlength) last hmem
    rw [hlast] at hinside
    cases hinside
  exact List.mem_of_getElem? (getElem?_eq_tokenAt (by omega))

/-- Each of the diagnostics for reports is made for one of these. -/
theorem Input.mem_reportTo {input : Input} {reports : List Report} {source : String}
    {diagnostic : Diagnostic}
    (hmem : diagnostic ∈ (input.reportTo reports (.empty (some source))).reported) :
    ∃ report ∈ reports, diagnostic = .make (some (Diagnostic.linesOf source)) .unexpectedToken
      report.complaint.message (some (input.placeOf report)) := by
  rw [reported_eq_map] at hmem
  obtain ⟨report, hreport, rfl⟩ := List.mem_map.mp hmem
  exact ⟨report, hreport, rfl⟩

section Sources

variable {source file : String} {keywords : List String} {diagnostic : Diagnostic}

/-- The diagnostic for a fault points at the character that the fault begins with. -/
theorem Source.pointsAtText_of_fault (tokens : List Token)
    (hmem : diagnostic ∈ (tokenize source keywords file).2) :
    diagnostic.PointsAtText file source.toList tokens := by
  change diagnostic ∈ ((tokenization source keywords file).reportTo _).reported at hmem
  unfold Tokenization.reportTo at hmem
  cases hfault : (tokenization source keywords file).fault with
  | none =>
    rw [hfault] at hmem
    exact absurd hmem List.not_mem_nil
  | some found =>
    obtain ⟨fault, place⟩ := found
    obtain ⟨before, after, hsource, rfl, hopens⟩ := opens_of_fault hfault
    obtain ⟨rest, rfl, hblank⟩ := hopens.opening
    rw [hfault] at hmem
    obtain rfl : diagnostic = .make (some (Diagnostic.linesOf source)) fault.kind fault.message
        (some (.behind file before)) := List.mem_singleton.mp hmem
    have hon : (Diagnostic.make (some (Diagnostic.linesOf source)) fault.kind fault.message
        (some (.behind file before))).IsOn file source.toList tokens (.fault fault) :=
      .fault hsource hopens (Diagnostic.make_kind _ _ _ _) Diagnostic.make_location.1
        Diagnostic.make_location.2
    refine ⟨_, .fault fault, Diagnostic.make_points hsource, hon, .inr ?_⟩
    exact ⟨fault.opening, rfl, Diagnostic.make_pointsTo hsource hblank⟩

/-- The diagnostic for a report points at the token that the report is about. -/
theorem Input.pointsAtText_of_report {options : Options} {program : List Statement}
    {rest : List Lexeme} {reports : List Report} {report : Report} {tokens : List Token}
    (htokens : tokens = (Source.tokenize source keywords file).1)
    (hprogram : Parser.program options (ofTokens tokens).lexemes = .done program rest reports)
    (hreport : report ∈ reports) :
    (Diagnostic.make (some (Diagnostic.linesOf source)) .unexpectedToken report.complaint.message
      (some ((ofTokens tokens).placeOf report))).PointsAtText file source.toList tokens := by
  have hcomplete : tokens = (Source.tokenization source keywords file).tokens ++
      [.ending (Source.tokenization source keywords file).stop] := htokens
  have hmem : (ofTokens tokens).tokenAt report.left ∈ tokens :=
    tokenAt_mem report.left (hcomplete ▸ List.mem_concat_self) rfl
  obtain ⟨-, hfound⟩ := report_of_program hprogram hreport
  rw [placeOf]
  generalize (ofTokens tokens).tokenAt report.left = token at hmem hfound
  have hon {lines : Option (Array (List Char))} : (Diagnostic.make lines .unexpectedToken
      report.complaint.message (some token.location)).IsOn file source.toList tokens
        (.token token) :=
    .token hmem (Diagnostic.make_kind _ _ _ _) Diagnostic.make_location.1 hfound
      Diagnostic.make_location.2
  rw [hcomplete] at hmem
  rcases List.mem_append.mp hmem with hinner | hend
  · obtain ⟨before, c, after, hsource, hplace, hopening, hblank⟩ :=
      Source.opening_of_mem_tokenization hinner
    rw [hplace] at hon ⊢
    exact ⟨_, _, Diagnostic.make_points hsource, hon, .inr
      ⟨c, hopening, Diagnostic.make_pointsTo hsource hblank⟩⟩
  · obtain rfl := List.mem_singleton.mp hend
    obtain ⟨before, after, hsource, hplace⟩ := Source.exists_before_stop source keywords file
    have hlocation : (Token.ending (Source.tokenization source keywords file).stop).location =
        .behind file before := hplace
    rw [hlocation] at hon ⊢
    exact ⟨_, _, Diagnostic.make_points hsource, hon, .inl rfl⟩

end Sources

/-- Whatever the source is, every diagnostic about it shows the line that it is about and points to
a column of it: to the first character of the token that it is reported on, to the quote or the
slash that begins an unclosed text or comment, or to a character that cannot be read; only a
diagnostic about the end of the input may point behind the line. -/
theorem parseSource_points {source file : String} {keywords : List String} {options : Options}
    {program : List Statement} {diagnostics : List Diagnostic}
    (hparsed : parseSource source keywords file options = .ok (program, diagnostics)) :
    ∀ diagnostic ∈ diagnostics,
      diagnostic.PointsAtText file source.toList (Source.tokenize source keywords file).1 := by
  intro diagnostic hmem
  rw [parseSource_eq_map] at hparsed
  cases htokens : parseTokens (Source.tokenize source keywords file).1 (some source) options with
  | error halt =>
    rw [htokens] at hparsed
    cases hparsed
  | ok parsed =>
    obtain ⟨statements, own⟩ := parsed
    rw [htokens] at hparsed
    obtain ⟨rfl, rfl⟩ := Prod.mk.inj (Except.ok.inj hparsed)
    rcases List.mem_append.mp hmem with hlexical | hown
    · exact Source.pointsAtText_of_fault _ hlexical
    · obtain ⟨reports, hprogram, rfl⟩ := parseTokens_eq_ok htokens
      obtain ⟨report, hreport, rfl⟩ := Input.mem_reportTo hown
      exact Input.pointsAtText_of_report rfl hprogram hreport

/-- A quoted text in place of a name, between carriage returns, is shown without them. -/
theorem parseSource_points_text :
    ∃ program diagnostic,
      parseSource "\r\nlet \"a\";\r" ["let"] "main" {} = .ok (program, [diagnostic]) ∧
      diagnostic.snippet = "let \"a\";" ∧ diagnostic.pointer = "    ^" ∧
      diagnostic.PointsAtText "main" "\r\nlet \"a\";\r".toList
        (Source.tokenize "\r\nlet \"a\";\r" ["let"] "main").1 := by
  have hparsed : ∃ program diagnostic,
      parseSource "\r\nlet \"a\";\r" ["let"] "main" {} = .ok (program, [diagnostic]) ∧
      diagnostic.snippet = "let \"a\";" ∧ diagnostic.pointer = "    ^" := ⟨_, _, rfl, rfl, rfl⟩
  obtain ⟨program, diagnostic, hparsed, hsnippet, hpointer⟩ := hparsed
  exact ⟨program, diagnostic, hparsed, hsnippet, hpointer,
    parseSource_points hparsed diagnostic List.mem_cons_self⟩

end BraceLang
