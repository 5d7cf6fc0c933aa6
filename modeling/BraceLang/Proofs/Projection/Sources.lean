import BraceLang.Proofs.Nesting.Grammar
import BraceLang.Proofs.Projection.PlainData
import BraceLang.Proofs.Projection.Rendering
import BraceLang.Proofs.Projection.Trees
import BraceLang.Proofs.Source.Numbers

/-!
# Projections of parsed sources

A word of a source holds no colon, and a numeral without a point is read as a natural number. So the
tree of a source is legible if no number in it has a point, and each of its projections tells it.
-/

namespace BraceLang

open BraceLang.Tree (Node Value)

namespace Source

variable {keywords : List String} {file source : String}

/-- No word holds a colon. -/
theorem IsWord.colon_notMem {text : List Char} (hword : IsWord text) : ':' ∉ text := by
  have hcolon : isWordChar ':' = false := by decide
  have hnot {part : List Char} (hpart : ∀ c ∈ part, isWordChar c = true) : ':' ∉ part :=
    fun hmem => by simp [hpart _ hmem] at hcolon
  cases hword with
  | plain _ htext => exact hnot htext
  | @pointed whole digit more hwhole hdigit hmore =>
    have hfront := hnot fun c hmem => isWordChar_of_isDigit (hwhole c hmem)
    have hmiddle : ':' ≠ digit := fun hsame => by
      rw [← hsame] at hdigit
      simp [isWordChar_of_isDigit hdigit] at hcolon
    simp [hfront, hmiddle, hnot hmore]

/-- A lexeme of a source is legible if it is no number with a point. -/
theorem isLegible_of_mem_tokenization {token : Token}
    (hmem : token ∈ (tokenization source keywords file).tokens)
    (hwhole : token.kind = .number → '.' ∉ token.text.toList) : token.toLexeme.IsLegible where
  natural hkind value hread := by
    obtain ⟨whole, point, fraction, htext, hfront, hpoint, hne, hback⟩ :=
      isDecimal_of_mem_tokenization hmem hkind
    rcases hpoint with rfl | rfl
    · have hdigits : ∀ c ∈ whole ++ fraction, c.isDigit = true :=
        List.forall_mem_append.mpr ⟨hfront, hback⟩
      rw [← String.ofList_toList (s := token.text), htext, List.nil_append,
        Numeral.read_digits hdigits (by simp [hne])] at hread
      split at hread
      · cases hread
      · exact ⟨_, (Except.ok.inj hread).symm⟩
    · rw [htext] at hwhole
      exact absurd (by simp) (hwhole hkind)
  plain hkind := by
    obtain ⟨spelling, hspells⟩ := spells_of_mem_tokenization hmem
    obtain ⟨⟨kind, text⟩, place⟩ := token
    obtain rfl : kind = .identifier := hkind
    cases hspells with
    | identifier hword => simpa using hword.colon_notMem

end Source

section

variable {source : String} {keywords : List String} {file : String} {options : Options}
  {program : List Statement} {diagnostics : List Diagnostic}

/-- The tree of a source is legible if no number in it has a point. -/
theorem parseSource_legible
    (hparsed : parseSource source keywords file options = .ok (program, diagnostics))
    (hwhole : ∀ token ∈ (Source.tokenize source keywords file).1, token.kind = .number →
      '.' ∉ token.text.toList) : (Statement.blockToNode program).toValue.Legible := by
  obtain ⟨reported, htokens, -⟩ := parseSource_eq_ok hparsed
  obtain ⟨reports, hprogram, -⟩ := parseTokens_eq_ok htokens
  have hcomposed := composed_of_program hprogram
  rw [Source.lexemes_tokenize] at hcomposed
  -- Only the tokens in front of the end are parsed.
  have hgiven : ∀ lexeme ∈ (Source.tokenization source keywords file).tokens.map Token.toLexeme,
      lexeme.IsLegible := List.forall_mem_map.mpr fun token hmem =>
    Source.isLegible_of_mem_tokenization hmem (hwhole token (List.mem_append_left _ hmem))
  exact Node.block_legible fun statement hmem => (hcomposed statement hmem).legible hgiven

/-- Where no number has a point, the trees of sources are told by their projections. They are equal
as plain data if they are the same, and rendered alike at some depth if they are; and the tags of a
tree are read off its data, in the order in which its nodes are walked. The sources may have
different keywords and options, and names and texts of any kind in them. -/
theorem parseSource_projections {other : String} {words : List String} {path : String}
    {choices : Options} {another : List Statement} {reported : List Diagnostic}
    (hparsed : parseSource source keywords file options = .ok (program, diagnostics))
    (hother : parseSource other words path choices = .ok (another, reported))
    (hwhole : ∀ token ∈ (Source.tokenize source keywords file).1, token.kind = .number →
      '.' ∉ token.text.toList)
    (hwhole' : ∀ token ∈ (Source.tokenize other words path).1, token.kind = .number →
      '.' ∉ token.text.toList) :
    let tree := Statement.blockToNode program
    let twin := Statement.blockToNode another
    (tree.toDatum.same twin.toDatum = true ↔ tree = twin) ∧
      (∀ depth, tree.render depth = twin.render depth ↔ tree = twin) ∧
      tree.walk.map Node.tag = tree.toDatum.tags := by
  intro tree twin
  have htree := parseSource_legible hparsed hwhole
  have htwin := parseSource_legible hother hwhole'
  have hnode : tree.toValue = twin.toValue ↔ tree = twin :=
    ⟨fun hvalue => by
      obtain ⟨htag, hinner⟩ := Value.node.inj hvalue
      exact congrArg₂ Node.mk htag hinner, congrArg Node.toValue⟩
  refine ⟨(htree.same_iff htwin).trans hnode, fun depth => ⟨fun hrender => ?_, fun hsame => ?_⟩,
    htree.tags_toDatum.symm⟩
  · have hchars := String.ofList_inj.mp hrender
    exact hnode.mp (htree.render_cancel htwin (congrArg (· ++ []) hchars)).1
  · rw [hsame]

end

/-- The tags of a tree are read off its data though there are fields in it that are called as those
of a node are, and however the source is spelled. -/
theorem parseSource_projections_fields :
    let program : List Statement := [.expression (.call ⟨"f", []⟩ [.structLiteral "P"
      [("value", .number (.integer 1)), ("type", .string "it's")]])]
    parseSource "f(P \x7b value: 1, type: \"it's\" \x7d);" [] "main" {} = .ok (program, []) ∧
      parseSource "f ( P \x7bvalue:01,type:\"it's\"\x7d) ;" [] "main" {} = .ok (program, []) ∧
      (Statement.blockToNode program).toDatum.tags =
        [.block, .expression, .call, .identifier, .structLiteral, .number, .string] := by
  intro program
  have hfirst : parseSource "f(P \x7b value: 1, type: \"it's\" \x7d);" [] "main" {} =
      .ok (program, []) := rfl
  have hsecond : parseSource "f ( P \x7bvalue:01,type:\"it's\"\x7d) ;" [] "main" {} =
      .ok (program, []) := rfl
  have hprojections := parseSource_projections hfirst hsecond (by decide) (by decide)
  exact ⟨hfirst, hsecond, hprojections.2.2.symm⟩

end BraceLang
