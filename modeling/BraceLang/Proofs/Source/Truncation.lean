import BraceLang.Proofs.Parsing.Stages
import BraceLang.Proofs.Source.LineBreaks

/-!
# Sources that are cut at a fault

A fault begins with a character that goes on no word, number, operator or comment on a line. So it
is a seam: what is in front of it is read in the same way where the source is cut there. A character
that is in no piece is as far as the source is read, and what is behind it may be anything.
-/

namespace BraceLang

/-- Behind a longer text is another place. -/
theorem Location.behind_append_inj {file : String} {before more : List Char}
    (hplace : behind file (before ++ more) = behind file before) : more = [] := by
  obtain ⟨hline, hcolumn, -⟩ := Location.mk.inj hplace
  rw [List.count_append] at hline
  have hcount : more.count '\n' = 0 := by omega
  have hmore : ∀ c ∈ more.reverse, (c != '\n') = true := fun c hmem => by
    refine bne_iff_ne.mpr ?_
    rintro rfl
    exact List.count_eq_zero.mp hcount (List.mem_reverse.mp hmem)
  rw [List.rtakeWhile, List.rtakeWhile, List.reverse_append, List.takeWhile_append_of_pos hmore,
    List.length_reverse, List.length_append, List.length_reverse, List.length_reverse] at hcolumn
  exact List.length_eq_zero_iff.mp (by omega)

/-- A part of a text at its beginning is told by the place behind it. -/
theorem Location.behind_inj_of_prefix {file : String} {text before other : List Char}
    (hbefore : before <+: text) (hother : other <+: text)
    (hplace : behind file before = behind file other) : before = other := by
  rcases List.prefix_or_prefix_of_prefix hbefore hother with ⟨more, rfl⟩ | ⟨more, rfl⟩
  · rw [behind_append_inj hplace.symm, List.append_nil]
  · rw [behind_append_inj hplace, List.append_nil]

namespace Source

/-- The characters of an operator are symbols. -/
theorem isSymbol_of_isOperator {first second : Char} (hoperator : isOperator first second = true) :
    isSymbol first = true ∧ isSymbol second = true :=
  of_isOperator hoperator (by decide)

/-- A character that is neither a symbol nor in words goes on nothing. -/
theorem detached_of_head {c : Char} (hword : isWordChar c = false) (hsymbol : isSymbol c = false)
    (after : List Char) : Detached (c :: after) := by
  rintro _ ⟨⟩
  refine ⟨hword, ?_, fun first => Bool.eq_false_iff.mpr fun hoperator => ?_⟩
  · rintro rfl
    exact absurd hsymbol (by decide)
  · rw [(isSymbol_of_isOperator hoperator).2] at hsymbol
    cases hsymbol

section Faults

variable {fault : Fault} {faulty : List Char}

/-- A fault goes on nothing in front of it. -/
theorem Fault.Opens.detached (hopens : fault.Opens faulty) : Detached faulty := by
  cases hopens with
  | unterminatedString _ => exact detached_of_head (by decide) (by decide) _
  | unterminatedComment _ =>
    rintro _ ⟨⟩
    refine ⟨by decide, by decide, fun first => Bool.eq_false_iff.mpr fun hoperator => ?_⟩
    exact (plain_of_isOperator hoperator '/' (by simp)).2.1 rfl
  | invalidCharacter _ hword hsymbol _ => exact detached_of_head hword hsymbol _

/-- A fault begins with a character, which is no line feed. -/
theorem Fault.Opens.head (hopens : fault.Opens faulty) : ∃ c ∈ faulty.head?, c ≠ '\n' := by
  cases hopens with
  | unterminatedString _ => exact ⟨_, rfl, by decide⟩
  | unterminatedComment _ => exact ⟨_, rfl, by decide⟩
  | invalidCharacter hblank _ _ _ =>
    refine ⟨_, rfl, ?_⟩
    rintro rfl
    exact absurd hblank (by decide)

/-- A character that is in no piece stops the scan where it stands, whatever is behind it. -/
theorem Fault.Opens.nextPiece {c : Char} {after : List Char}
    (hopens : (Fault.invalidCharacter c).Opens (c :: after)) (afterWord : Bool) (other : List Char) :
    nextPiece afterWord c other = .error (.invalidCharacter c) := by
  cases hopens with
  | invalidCharacter hblank hword hsymbol hquote =>
    have hslash : c ≠ '/' := by
      rintro rfl
      exact absurd hsymbol (by decide)
    have hoperator : operatorBehind c other = none := by
      cases other with
      | nil => rfl
      | cons d rest =>
        rw [operatorBehind, if_neg fun h => ?_]
        rw [(isSymbol_of_isOperator h).1] at hsymbol
        cases hsymbol
    rw [nextPiece_plain afterWord hquote hblank fun h => absurd h hslash, nextPlain, hoperator]
    rcases hsplit : splitWord afterWord (c :: other) with ⟨front, back⟩
    obtain ⟨htext, hfront, -⟩ := splitWord_reads hsplit
    cases front with
    | nil => simp [hsymbol]
    | cons d more =>
      obtain ⟨rfl, -⟩ := List.cons.inj htext
      rcases (hfront (List.cons_ne_nil _ _)).head rfl with hchar | rfl
      · rw [hword] at hchar
        cases hchar
      · exact absurd hsymbol (by decide)

end Faults

section Scans

variable {pieces : List Piece} {fault : Fault} {faulty other : List Char}
  {found : Option (Fault × List Char)}

/-- The first piece of a scan is the next one, and the others are found behind it. -/
theorem scanFrom_eq_cons {fuel : Nat} {afterWord : Bool} {text : List Char} {piece : Piece}
    (hscan : scanFrom fuel afterWord text = ⟨piece :: pieces, found⟩) :
    ∃ fewer c rest after, text = c :: rest ∧
      nextPiece afterWord c rest = .ok (piece, after) ∧
      scanFrom fewer piece.isWord after = ⟨pieces, found⟩ := by
  rcases text with _ | ⟨c, rest⟩
  · cases fuel <;> cases hscan
  rcases fuel with _ | fewer
  · cases hscan
  rw [scanFrom] at hscan
  rcases hpiece : nextPiece afterWord c rest with fault | ⟨first, after⟩
  · rw [hpiece] at hscan
    cases hscan
  · rw [hpiece] at hscan
    obtain ⟨hpieces, hfault⟩ := Scan.mk.inj hscan
    obtain ⟨rfl, hothers⟩ := List.cons.inj hpieces
    refine ⟨fewer, c, rest, after, rfl, hpiece, ?_⟩
    rw [← hothers, ← hfault]

/-- The pieces in front of a fault are found in front of anything else that goes on none of them. -/
theorem scanFrom_of_fault (hopens : fault.Opens faulty) (hother : Detached other)
    (hcomment : ∀ d ∈ other.head?, d ≠ '/' ∧ d ≠ '*')
    (hfound : ∀ fuel afterWord, other.length ≤ fuel →
      scanFrom fuel afterWord other = ⟨[], found⟩)
    {fuel enough : Nat} {afterWord : Bool}
    (hscan : scanFrom fuel afterWord (textOf pieces ++ faulty) = ⟨pieces, some (fault, faulty)⟩)
    (henough : (textOf pieces ++ other).length ≤ enough) :
    scanFrom enough afterWord (textOf pieces ++ other) = ⟨pieces, found⟩ := by
  induction pieces generalizing fuel enough afterWord with
  | nil => exact hfound enough afterWord henough
  | cons piece others ih =>
    have htext (last : List Char) : textOf (piece :: others) ++ last =
        piece.text ++ (textOf others ++ last) := by
      rw [textOf, List.flatMap_cons, List.append_assoc]
      rfl
    rw [htext] at hscan henough ⊢
    obtain ⟨fewer, c, rest, after, hrest, hpiece, hothers⟩ := scanFrom_eq_cons hscan
    have hstep := nextPiece_reads afterWord c rest
    rw [hpiece, ← hrest] at hstep
    obtain ⟨hafter, hprecedes⟩ := hstep
    obtain rfl := List.append_cancel_left hafter
    obtain ⟨first, own, hown⟩ := List.exists_cons_of_ne_nil hprecedes.text_ne_nil
    rw [hown, List.cons_append] at hrest henough ⊢
    obtain ⟨rfl, rfl⟩ := List.cons.inj hrest
    rw [← List.append_assoc] at hpiece henough ⊢
    have hline : ∀ body, piece = .lineComment body →
        ∀ d ∈ (textOf others ++ other).head?, d = '\n' := by
      rintro body rfl
      obtain ⟨e, hhead, hfeed⟩ := hopens.head
      cases hprecedes with
      | lineComment _ hend =>
        cases hbehind : textOf others with
        | nil =>
          rw [hbehind] at hend
          exact absurd (hend e hhead) hfeed
        | cons d more =>
          rw [hbehind] at hend
          exact hend
    have hshorter := nextPiece_append hother hcomment
      (nextPiece_of_append hopens.detached hpiece) hline
    rcases enough with _ | enough
    · exact absurd henough (Nat.not_succ_le_zero _)
    · refine scanFrom_of_nextPiece hshorter (ih hothers ?_)
      rw [List.length_cons, List.append_assoc, List.length_append] at henough
      omega

/-- Where a source is cut at a fault, the pieces in front of it are read, and nothing else. -/
theorem scan_of_fault_nil (hopens : fault.Opens faulty)
    (hscan : scan (textOf pieces ++ faulty) = ⟨pieces, some (fault, faulty)⟩) :
    scan (textOf pieces) = ⟨pieces, none⟩ := by
  have hcut : scan (textOf pieces ++ []) = ⟨pieces, none⟩ :=
    scanFrom_of_fault hopens .nil nofun (fun fuel _ _ => by cases fuel <;> rfl) hscan
      (Nat.le_refl _)
  rwa [List.append_nil] at hcut

/-- Whatever is behind a character that is in no piece, the scan stops there. -/
theorem scan_of_fault_cons {c : Char} {after : List Char}
    (hopens : (Fault.invalidCharacter c).Opens (c :: after))
    (hscan : scan (textOf pieces ++ c :: after) =
      ⟨pieces, some (.invalidCharacter c, c :: after)⟩) (other : List Char) :
    scan (textOf pieces ++ c :: other) = ⟨pieces, some (.invalidCharacter c, c :: other)⟩ := by
  have hdetached : Detached (c :: other) := by
    rintro d ⟨⟩
    exact hopens.detached c rfl
  have hcomment : ∀ d ∈ (c :: other).head?, d ≠ '/' ∧ d ≠ '*' := by
    rintro d ⟨⟩
    cases hopens with
    | invalidCharacter _ _ hsymbol _ =>
      constructor <;> rintro rfl <;> exact absurd hsymbol (by decide)
  have hfound : ∀ fuel afterWord, (c :: other).length ≤ fuel →
      scanFrom fuel afterWord (c :: other) =
        ⟨[], some (.invalidCharacter c, c :: other)⟩ := by
    intro fuel afterWord hfuel
    cases fuel with
    | zero => exact absurd hfuel (Nat.not_succ_le_zero _)
    | succ fuel => rw [scanFrom, hopens.nextPiece]
  exact scanFrom_of_fault hopens hdetached hcomment hfound hscan (Nat.le_refl _)

end Scans

section Tokens

variable {source : String} (keywords : List String) (file : String) {pieces : List Piece}

/-- A diagnostic about a source is that of the fault which stops the scan. -/
theorem fault_of_mem_tokenize {keywords : List String} {file : String} {diagnostic : Diagnostic}
    (hreported : diagnostic ∈ (tokenize source keywords file).2) :
    ∃ pieces fault faulty, scan source.toList = ⟨pieces, some (fault, faulty)⟩ ∧
      fault.Opens faulty ∧ source.toList = textOf pieces ++ faulty ∧
      diagnostic.kind = fault.kind ∧
      diagnostic.location = some (.behind file (textOf pieces)) := by
  have hreads := scan_reads source.toList
  rcases hscan : scan source.toList with ⟨pieces, _ | ⟨fault, faulty⟩⟩
  · rw [tokenize_of_scan keywords file hscan] at hreported
    cases hreported
  · rw [hscan] at hreads
    rw [tokenize_of_fault keywords file hscan] at hreported
    obtain rfl := List.mem_singleton.mp hreported
    exact ⟨pieces, fault, faulty, rfl, hreads.opens rfl, hreads.text_eq, rfl, rfl⟩

/-- Sources that are the same up to a character in no piece have the same tokens, and the same
diagnostics but for the lines that are shown. -/
theorem tokenize_of_foreign {other : String} {c : Char} {after behind : List Char}
    (hopens : (Fault.invalidCharacter c).Opens (c :: after))
    (hsource : source.toList = textOf pieces ++ c :: after)
    (hscan : scan source.toList = ⟨pieces, some (.invalidCharacter c, c :: after)⟩)
    (hother : other.toList = textOf pieces ++ c :: behind) :
    (tokenize other keywords file).1 = (tokenize source keywords file).1 ∧
      (tokenize other keywords file).2.map Diagnostic.withoutSnippet =
        (tokenize source keywords file).2.map Diagnostic.withoutSnippet := by
  have hscanned : scan other.toList = ⟨pieces, some (.invalidCharacter c, c :: behind)⟩ := by
    rw [hsource] at hscan
    rw [hother]
    exact scan_of_fault_cons hopens hscan behind
  rw [tokenize_of_fault keywords file hscan, tokenize_of_fault keywords file hscanned]
  exact ⟨rfl, rfl⟩

end Tokens

/-- A text that agrees with another one up to some character has the same part in front of it. -/
theorem exists_of_take_eq {front after text : List Char} {c : Char}
    (hagree : text.take (front.length + 1) = (front ++ c :: after).take (front.length + 1)) :
    ∃ behind, text = front ++ c :: behind := by
  rw [List.take_length_add_append, List.take_succ_cons, List.take_zero] at hagree
  refine ⟨text.drop (front.length + 1), ?_⟩
  have hsplit := List.take_append_drop (front.length + 1) text
  rw [hagree, List.append_assoc, List.singleton_append] at hsplit
  exact hsplit.symm

end Source

section Programs

variable {source : String} {keywords : List String} {file : String}

/-- Up to snippets, what a source is parsed to is told by its tokens and its diagnostics. -/
theorem parseSource_withoutSnippet (source : String) (keywords : List String) (file : String)
    (options : Options) :
    (fun (program, diagnostics) => (program, diagnostics.map Diagnostic.withoutSnippet)) <$>
        parseSource source keywords file options =
      (fun (program, diagnostics) => (program,
        (Source.tokenize source keywords file).2.map Diagnostic.withoutSnippet ++ diagnostics)) <$>
          parseTokens (Source.tokenize source keywords file).1 none options := by
  rw [parseSource_eq_map, parseTokens_none _ (some source)]
  cases parseTokens (Source.tokenize source keywords file).1 (some source) options with
  | error halt => rfl
  | ok parsed => exact congrArg (fun shown => Except.ok (parsed.1, shown)) (List.map_append ..)

/-- The program of a source is that of its tokens. -/
theorem fst_parseSource (source : String) (keywords : List String) (file : String)
    (options : Options) :
    Prod.fst <$> parseSource source keywords file options =
      Prod.fst <$> parseTokens (Source.tokenize source keywords file).1 none options := by
  rw [parseSource_eq_map, parseTokens_none _ (some source)]
  cases parseTokens (Source.tokenize source keywords file).1 (some source) options <;> rfl

/-- A fault keeps everything in front of it. Where a source has a diagnostic at some offset, the
part in front of the offset has none and is read as the same tokens at the same places, but for the
one that marks the end. If the diagnostic is about a character that is in no piece, that token is
the same as well, so that the part in front is parsed to the same program; and what is behind the
character has no influence: any source that is the same up to it has the same tokens, diagnostics
and program, but for the lines that are shown. -/
theorem tokenize_take_of_fault {diagnostic : Diagnostic} {offset : Nat}
    (hreported : diagnostic ∈ (Source.tokenize source keywords file).2)
    (hoffset : offset ≤ source.toList.length)
    (hplace : diagnostic.location = some (.behind file (source.toList.take offset))) :
    let front := String.ofList (source.toList.take offset)
    (Source.tokenize front keywords file).2 = [] ∧
    (Source.tokenize front keywords file).1.filter (·.kind != .endOfInput) =
      (Source.tokenize source keywords file).1.filter (·.kind != .endOfInput) ∧
    (diagnostic.kind = .invalidCharacter →
      (Source.tokenize front keywords file).1 = (Source.tokenize source keywords file).1 ∧
      (∀ options, Prod.fst <$> parseSource front keywords file options =
        Prod.fst <$> parseSource source keywords file options) ∧
      ∀ other : String, other.toList.take (offset + 1) = source.toList.take (offset + 1) →
        (Source.tokenize other keywords file).1 = (Source.tokenize source keywords file).1 ∧
        ∀ options,
          (fun (program, shown) => (program, shown.map Diagnostic.withoutSnippet)) <$>
              parseSource other keywords file options =
            (fun (program, shown) => (program, shown.map Diagnostic.withoutSnippet)) <$>
              parseSource source keywords file options) := by
  intro front
  obtain ⟨pieces, fault, faulty, hscan, hopens, htext, hkind, hlocation⟩ :=
    Source.fault_of_mem_tokenize hreported
  have hbefore : Source.textOf pieces = source.toList.take offset := by
    have hsame := Option.some.inj (hlocation.symm.trans hplace)
    exact Location.behind_inj_of_prefix ⟨faulty, htext.symm⟩ (List.take_prefix _ _) hsame
  rw [htext] at hscan
  have hfront : Source.scan front.toList = ⟨pieces, none⟩ := by
    rw [String.toList_ofList, ← hbefore]
    exact Source.scan_of_fault_nil hopens hscan
  rw [← htext] at hscan
  have hfronts := Source.tokenize_of_scan keywords file hfront
  have hown := Source.tokenize_of_fault keywords file hscan
  refine ⟨by rw [hfronts], ?_, fun hforeign => ?_⟩
  · rw [hfronts, hown, List.filter_append, List.filter_append]
    rfl
  · cases fault with
    | unterminatedString | unterminatedComment => cases hkind.symm.trans hforeign
    | invalidCharacter c =>
      obtain ⟨after, rfl⟩ : ∃ after, faulty = c :: after := by
        cases hopens
        exact ⟨_, rfl⟩
      have htokens : (Source.tokenize front keywords file).1 =
          (Source.tokenize source keywords file).1 := by
        rw [hfronts, hown, Source.Fault.passed, List.append_nil]
      refine ⟨htokens, fun options => ?_, fun other hagree => ?_⟩
      · rw [fst_parseSource, fst_parseSource, htokens]
      · have hcount : (Source.textOf pieces).length = offset := by
          rw [hbefore, List.length_take, Nat.min_eq_left hoffset]
        rw [htext, ← hcount] at hagree
        obtain ⟨behind, hother⟩ := Source.exists_of_take_eq hagree
        obtain ⟨hsame, hshown⟩ := Source.tokenize_of_foreign keywords file hopens htext hscan
          hother
        exact ⟨hsame, fun options => by
          rw [parseSource_withoutSnippet, parseSource_withoutSnippet, hsame, hshown]⟩

/-- A point in front of a character that is in no piece begins no fraction, whatever is behind the
character. -/
theorem tokenize_take_of_fault_point :
    let foreign : Diagnostic :=
      ⟨.invalidCharacter, "Invalid character '§'", some ⟨1, 3, "main"⟩, "1.§5;", "  ^"⟩
    foreign ∈ (Source.tokenize "1.§5;" [] "main").2 ∧
    (Source.tokenize "1." [] "main").2 = [] ∧
    (Source.tokenize "1." [] "main").1 = (Source.tokenize "1.§5;" [] "main").1 ∧
    ∀ other : String, other.toList.take 3 = ['1', '.', '§'] →
      (Source.tokenize other [] "main").1 = (Source.tokenize "1.§5;" [] "main").1 := by
  intro foreign
  have hresult : Source.tokenize "1.§5;" [] "main" =
      ([⟨⟨.number, "1"⟩, ⟨1, 1, "main"⟩⟩, ⟨⟨.symbol, "."⟩, ⟨1, 2, "main"⟩⟩,
        .ending ⟨1, 3, "main"⟩], [foreign]) := by
    decide +kernel
  have hreported : foreign ∈ (Source.tokenize "1.§5;" [] "main").2 := by
    rw [hresult]
    exact List.mem_singleton_self foreign
  have hplace : foreign.location = some (.behind "main" ("1.§5;".toList.take 2)) := rfl
  obtain ⟨hclean, -, hforeign⟩ := tokenize_take_of_fault hreported (by decide) hplace
  obtain ⟨htokens, -, hothers⟩ := hforeign rfl
  exact ⟨hreported, hclean, htokens, fun other hagree => (hothers other hagree).1⟩

end Programs

end BraceLang
