import BraceLang.Parser.Input

/-!
# Sources and their tokens

A source may be parsed at once, or its tokens are made first and parsed then. Reports are added
behind the diagnostics that a collector holds, whatever these are, so both ways come to the same
diagnostics: those of the source, and behind them those of its tokens. Where the tokens are parsed
without their source the lines are missing from the diagnostics and nothing else is.
-/

namespace BraceLang

/-- The same diagnostic without the line that it is about. -/
def Diagnostic.withoutSnippet (diagnostic : Diagnostic) : Diagnostic :=
  { diagnostic with snippet := "" }

/-- A diagnostic that is made without lines lacks the snippet. -/
theorem Diagnostic.make_none (lines : Option (Array (List Char))) (kind : DiagnosticKind)
    (message : String) (location : Option Location) :
    make none kind message location = (make lines kind message location).withoutSnippet := by
  cases location <;> cases lines <;> rfl

/-- The diagnostic of a report has its kind. -/
theorem Diagnostic.make_kind (lines : Option (Array (List Char))) (kind : DiagnosticKind)
    (message : String) (location : Option Location) :
    (make lines kind message location).kind = kind := by
  cases location <;> cases lines <;> rfl

namespace Input

variable (input : Input) (reports : List Report)

/-- What a collector holds stays in front of the diagnostics for the reports, which are those that
an empty collector for the same source would hold. -/
theorem reportTo_append (collector : Diagnostic.Collector) :
    (input.reportTo reports collector).reported =
      collector.reported ++ (input.reportTo reports (.empty collector.source)).reported := rfl

/-- The diagnostics for reports are made one by one. -/
theorem reported_eq_map (source : Option String) :
    (input.reportTo reports (.empty source)).reported = reports.map fun report =>
      .make (source.map Diagnostic.linesOf) .unexpectedToken report.complaint.message
        (some (input.placeOf report)) := by
  simp [reportTo, Diagnostic.Collector.reportAll, Diagnostic.Collector.empty, Function.comp_def]

/-- The diagnostics for several reports are in the order of these. -/
theorem reported_append (source : Option String) (earlier later : List Report) :
    (input.reportTo (earlier ++ later) (.empty source)).reported =
      (input.reportTo earlier (.empty source)).reported ++
        (input.reportTo later (.empty source)).reported := by
  simp only [reported_eq_map, List.map_append]

/-- Without the first report the first diagnostic is missing. -/
theorem reported_tail (source : Option String) :
    (input.reportTo reports.tail (.empty source)).reported =
      (input.reportTo reports (.empty source)).reported.tail := by
  simp only [reported_eq_map, List.map_tail]

/-- Without a source the diagnostics lack their snippets. -/
theorem reportTo_none (source : Option String) :
    (input.reportTo reports (.empty none)).reported =
      (input.reportTo reports (.empty source)).reported.map Diagnostic.withoutSnippet := by
  have hmake (report : Report) := Diagnostic.make_none (source.map Diagnostic.linesOf)
    .unexpectedToken report.complaint.message (some (input.placeOf report))
  simp only [reported_eq_map, List.map_map, Option.map_none]
  exact List.map_congr_left fun report _ => hmake report

end Input

/-- Reading a source reports one fault at most, and nothing else. -/
theorem Source.tokenize_diagnostics (source : String) (keywords : List String) (file : String) :
    (tokenize source keywords file).2 = [] ∨
      ∃ diagnostic, (tokenize source keywords file).2 = [diagnostic] ∧
        diagnostic.kind.isLexical = true := by
  change ((tokenization source keywords file).reportTo _).reported = [] ∨ _
  unfold Tokenization.reportTo
  cases hfault : (tokenization source keywords file).fault with
  | none => exact .inl rfl
  | some found =>
    obtain ⟨fault, place⟩ := found
    refine .inr ⟨.make (some (Diagnostic.linesOf source)) fault.kind fault.message (some place),
      ?_, ?_⟩
    · change ((tokenization source keywords file).reportTo _).reported = _
      rw [Tokenization.reportTo, hfault]
      rfl
    · cases fault <;> rfl

/-- Tokens are parsed as an input, whose reports become the diagnostics. -/
theorem parseTokens_eq_map (tokens : List Token) (source : Option String) (options : Options) :
    parseTokens tokens source options =
      (fun parsed => (parsed.statements,
        ((Input.ofTokens tokens).reportTo parsed.reports (.empty source)).reported)) <$>
          (Input.ofTokens tokens).parse options := by
  simp only [parseTokens]
  cases (Input.ofTokens tokens).parse options <;> rfl

/-- Tokens that are parsed without a source give the same program, and the same diagnostics without
their snippets. -/
theorem parseTokens_none (tokens : List Token) (source : Option String) (options : Options) :
    parseTokens tokens none options =
      (fun (program, diagnostics) => (program, diagnostics.map Diagnostic.withoutSnippet)) <$>
        parseTokens tokens source options := by
  simp only [parseTokens_eq_map, Input.reportTo_none _ _ source]
  cases (Input.ofTokens tokens).parse options <;> rfl

/-- Parsing a source is parsing its tokens, with the diagnostics of the source in front. -/
theorem parseSource_eq_map (source : String) (keywords : List String) (file : String)
    (options : Options) :
    parseSource source keywords file options =
      (fun (program, diagnostics) =>
        (program, (Source.tokenize source keywords file).2 ++ diagnostics)) <$>
          parseTokens (Source.tokenize source keywords file).1 (some source) options := by
  let result := Source.tokenization source keywords file
  have hsource : (result.reportTo (.empty (some source))).source = some source := by
    unfold Source.Tokenization.reportTo
    cases result.fault <;> rfl
  have htokens : (Source.tokenize source keywords file).1 = result.complete := rfl
  simp only [htokens, parseTokens_eq_map, parseSource]
  rw [show Source.tokenization source keywords file = result from rfl]
  cases hparsed : (Input.ofTokens result.complete).parse options with
  | error halt => rfl
  | ok parsed =>
    change Except.ok (parsed.statements, _) = Except.ok (parsed.statements, _)
    rw [Input.reportTo_append, hsource]
    rfl

/-- A source that is parsed to a program has its tokens parsed to it. -/
theorem parseSource_eq_ok {source : String} {keywords : List String} {file : String}
    {options : Options} {program : List Statement} {diagnostics : List Diagnostic}
    (hparsed : parseSource source keywords file options = .ok (program, diagnostics)) :
    ∃ reported, parseTokens (Source.tokenize source keywords file).1 (some source) options =
        .ok (program, reported) ∧
      diagnostics = (Source.tokenize source keywords file).2 ++ reported := by
  rw [parseSource_eq_map] at hparsed
  cases htokens : parseTokens (Source.tokenize source keywords file).1 (some source) options with
  | error halt =>
    rw [htokens] at hparsed
    cases hparsed
  | ok parsed =>
    rw [htokens] at hparsed
    obtain ⟨rfl, rfl⟩ := Prod.mk.inj (Except.ok.inj hparsed)
    exact ⟨parsed.2, rfl, rfl⟩

end BraceLang
