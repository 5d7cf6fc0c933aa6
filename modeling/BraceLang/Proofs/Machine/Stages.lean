import BraceLang.Proofs.Machine.Programs

/-!
# Sources and their tokens, read with one collector or with two

A source may be read with one collector, which holds what the lexer reports when the machine begins.
Or its tokens are made first, with a collector of their own, and read then with another one. What a
collector holds has no part in what the machine does: it is only added to. So both ways come to the
same, in as much room as there is.
-/

namespace BraceLang

namespace Machine

/-- One collector holds what the other holds, behind what it held before. Both are about one
source. -/
def Correspondence.inFront (setting : Setting) (source : Option String)
    (earlier : List Diagnostic) : Correspondence setting setting :=
  .same setting (fun _ => True)
    (fun collector second =>
      second.source = source ∧ collector = ⟨source, earlier ++ second.reported⟩)
    (fun _ _ => trivial) <| by
    rintro collector second message place ⟨rfl, rfl⟩
    refine ⟨rfl, ?_⟩
    simp only [Diagnostic.Collector.report, Diagnostic.Collector.reportAll, List.append_assoc]

/-- An empty collector corresponds to one that holds just what is in front. -/
theorem Correspondence.inFront_start (setting : Setting) (source : Option String)
    (earlier : List Diagnostic) :
    (Correspondence.inFront setting source earlier).Reported ⟨source, earlier⟩ (.empty source) :=
  ⟨rfl, by rw [Diagnostic.Collector.empty, List.append_nil]⟩

end Machine

open Machine

/-- What a collector holds at first stays in front of what is reported to it, and changes nothing
else. -/
theorem Machine.readProgram_inFront (tokens : List Token) (source : Option String)
    (earlier : List Diagnostic) (options : Options) (limit : Option Nat) :
    readProgram tokens ⟨source, earlier⟩ options limit =
      (fun (program, diagnostics) => (program, ⟨source, earlier ++ diagnostics⟩)) <$>
        readTokens tokens source options limit := by
  obtain ⟨halt, hone, hother⟩ | ⟨program, behind, after, hone, hother, -, rfl⟩ :=
    readProgram_twins (.inFront (.over tokens limit) source earlier) ⟨rfl, trivial⟩
      (Correspondence.inFront_start _ source earlier) options
  · rw [hone, readTokens, hother]
    rfl
  · rw [hone, readTokens, hother]
    rfl

/-- Tokens that are read without a source give the same program, and the same diagnostics without
their snippets. -/
theorem readTokens_none (tokens : List Token) (source : Option String) (options : Options)
    (limit : Option Nat) :
    readTokens tokens none options limit =
      (fun (program, diagnostics) => (program, diagnostics.map Diagnostic.withoutSnippet)) <$>
        readTokens tokens source options limit := by
  let correspondence := Correspondence.same (.over tokens limit) (fun _ => True)
    (fun collector second => collector.source = none ∧
      collector.reported = second.reported.map Diagnostic.withoutSnippet)
    (fun _ _ => trivial) <| by
    rintro collector second message place ⟨hsource, hreported⟩
    have hmake := Diagnostic.make_none (second.source.map Diagnostic.linesOf) .unexpectedToken
      message (some place)
    refine ⟨hsource, ?_⟩
    simp only [Diagnostic.Collector.report, Diagnostic.Collector.reportAll, hsource, hreported,
      Option.map_none, List.map_cons, List.map_nil, List.map_append, hmake]
  have hstart : correspondence.Reported (.empty none) (.empty source) := ⟨rfl, rfl⟩
  obtain ⟨halt, hone, hother⟩ | ⟨program, behind, after, hone, hother, -, hreported⟩ :=
    readProgram_twins correspondence ⟨rfl, trivial⟩ hstart options
  · rw [readTokens, readTokens, hone, hother]
    rfl
  · rw [readTokens, readTokens, hone, hother]
    exact congrArg (fun diagnostics => Except.ok (program, diagnostics)) hreported

/-- The diagnostics for tokens that are read are about unexpected tokens. -/
theorem kind_of_readTokens {tokens : List Token} {source : Option String} {options : Options}
    {limit : Option Nat} {program : List Statement} {diagnostics : List Diagnostic}
    (hread : readTokens tokens source options limit = .ok (program, diagnostics)) :
    ∀ diagnostic ∈ diagnostics, diagnostic.kind = .unexpectedToken := by
  let correspondence := Correspondence.same (.over tokens limit) (fun _ => True)
    (fun collector _ => ∀ diagnostic ∈ collector.reported, diagnostic.kind = .unexpectedToken)
    (fun _ _ => trivial) <| by
    intro collector second message place hreported diagnostic hmem
    rcases List.mem_append.mp hmem with hmem | hmem
    · exact hreported diagnostic hmem
    · rw [List.mem_singleton.mp hmem]
      exact Diagnostic.make_kind _ _ _ _
  have hstart : correspondence.Reported (.empty source) (.empty source) :=
    fun _ hmem => nomatch hmem
  rw [readTokens] at hread
  obtain ⟨halt, hone, -⟩ | ⟨other, behind, after, hone, -, hreported⟩ :=
    readProgram_twins correspondence ⟨rfl, trivial⟩ hstart options
  · rw [hone] at hread
    cases hread
  · rw [hone] at hread
    cases hread
    exact hreported

/-- What the lexer reports stands in front of what is reported for the tokens. -/
theorem readSource_eq_map (source : String) (keywords : List String) (file : String)
    (options : Options) (limit : Option Nat) :
    readSource source keywords file options limit =
      (fun (program, diagnostics) =>
        (program, ⟨some source, (Source.tokenize source keywords file).2 ++ diagnostics⟩)) <$>
          readTokens (Source.tokenize source keywords file).1 (some source) options limit := by
  rw [readSource_eq_readProgram, readProgram_inFront]

/-- A source is read as it is parsed, unless there is too little room. -/
theorem readSource_eq_parseSource {source : String} {keywords : List String} {file : String}
    {options : Options} {limit : Option Nat}
    (hroom : readSource source keywords file options limit ≠ .error .exhausted) :
    (fun (program, collector) => (program, collector.reported)) <$>
        readSource source keywords file options limit =
      parseSource source keywords file options := by
  rw [readSource_eq_map] at hroom ⊢
  have htokens : readTokens (Source.tokenize source keywords file).1 (some source) options limit ≠
      .error .exhausted := by
    intro hshort
    rw [hshort] at hroom
    exact hroom rfl
  rw [readTokens_eq_parseTokens_of_ne htokens, parseSource_eq_map]
  cases parseTokens (Source.tokenize source keywords file).1 (some source) options <;> rfl

/-- Without a limit there is never too little room. -/
theorem readSource_none_ne_exhausted (source : String) (keywords : List String) (file : String)
    (options : Options) : readSource source keywords file options ≠ .error .exhausted := by
  rw [readSource_eq_readProgram]
  exact readProgram_none_ne_exhausted _

/-- Reading a source with one collector comes to what reading its tokens comes to, or stops where
that stops, however much room there is. The diagnostics of the lexer, of which there is one at most,
stand in front of those of the machine, which are about unexpected tokens. Tokens that are read
without a source give the same program, and the same diagnostics without their snippets. Without a
limit the lexer finds what the scan of the source finds, and what is read is what is parsed. -/
theorem readSource_in_stages (source : String) (keywords : List String) (file : String)
    (options : Options) (limit : Option Nat) :
    let lexer := (Source.Lexer.start source keywords file).call
    let tokens := lexer.tokens.toList
    let lexical := lexer.collector.reported
    readSource source keywords file options limit =
        (fun (program, diagnostics) => (program, ⟨some source, lexical ++ diagnostics⟩)) <$>
          readTokens tokens (some source) options limit ∧
      lexical.length ≤ 1 ∧ (∀ diagnostic ∈ lexical, diagnostic.kind.isLexical = true) ∧
      (∀ program diagnostics,
        readTokens tokens (some source) options limit = .ok (program, diagnostics) →
        ∀ diagnostic ∈ diagnostics, diagnostic.kind = .unexpectedToken) ∧
      readTokens tokens none options limit =
        (fun (program, diagnostics) => (program, diagnostics.map Diagnostic.withoutSnippet)) <$>
          readTokens tokens (some source) options limit ∧
      (tokens, lexical) = Source.tokenize source keywords file ∧
      readTokens tokens (some source) options = parseTokens tokens (some source) options ∧
      (fun (program, collector) => (program, collector.reported)) <$>
          readSource source keywords file options =
        parseSource source keywords file options := by
  intro lexer tokens lexical
  obtain ⟨hcall, -, hcollector, -⟩ := Source.Lexer.call_start source keywords file (.empty none)
  have htokens : tokens = (Source.tokenize source keywords file).1 := hcall
  have hlexical : lexical = (Source.tokenize source keywords file).2 :=
    congrArg Diagnostic.Collector.reported hcollector
  rw [htokens, hlexical]
  refine ⟨readSource_eq_map _ _ _ _ _, ?_, ?_, fun _ _ => kind_of_readTokens,
    readTokens_none _ _ _ _, rfl, readTokens_eq_parseTokens _ _ _,
    readSource_eq_parseSource (readSource_none_ne_exhausted _ _ _ _)⟩
  · obtain hnone | ⟨diagnostic, hone, -⟩ := Source.tokenize_diagnostics source keywords file
    · rw [hnone]
      exact Nat.zero_le 1
    · rw [hone]
      exact Nat.le_refl 1
  · obtain hnone | ⟨diagnostic, hone, hkind⟩ := Source.tokenize_diagnostics source keywords file
    · simp [hnone]
    · simpa [hone] using hkind

end BraceLang
