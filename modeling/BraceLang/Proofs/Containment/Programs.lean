import BraceLang.Proofs.Containment.Innermost
import BraceLang.Proofs.Containment.Statements
import BraceLang.Proofs.Lockstep.Composition

/-!
# Blocks that are nested too deep

A statement that is put in where as many levels are open as may be, and that opens one more block,
is one complaint in the program, with one diagnostic. Nothing else of the program is touched by it.
-/

namespace BraceLang

open BraceLang.Parser

/-- The diagnostic of a complaint about a token: it is at the token, with the line of the source in
which that stands, if there is a source, and a caret below the token. -/
def Token.diagnosis (source : Option String) (token : Token) (complaint : Complaint) :
    Diagnostic where
  kind := .unexpectedToken
  message := complaint.message
  location := some token.location
  snippet := (source.map (Diagnostic.snippetAt · token.location.line)).getD ""
  pointer := Diagnostic.caret token.location.column

/-- It is what is made of the complaint. -/
theorem Token.make_eq_diagnosis (source : Option String) (token : Token) (complaint : Complaint) :
    Diagnostic.make (source.map Diagnostic.linesOf) .unexpectedToken complaint.message
      (some token.location) = token.diagnosis source complaint := by
  cases source <;> rfl

/-- The token that stands where the rest of an input is unread which it begins. -/
theorem Input.tokenAt_behind {front rest : List Token} {token : Token}
    (hfront : ∀ token ∈ front, isInside token = true) (htoken : isInside token = true) :
    (ofTokens (front ++ token :: rest)).tokenAt (ofTokens (token :: rest)).lexemes.length =
      token := by
  rw [length_lexemes, tokenAt_append hfront (List.cons_ne_nil token rest) (Nat.le_refl _), tokenAt,
    Nat.sub_self]
  simp [ofTokens, htoken]

/-- A row that is put in at a boundary of a program where no more levels may be opened is read in
its place. -/
theorem Parser.program_fills {options : Options} {before after : List Lexeme}
    {statements : List Statement}
    (hdone : program options (before ++ after) = .done statements [] [])
    (hevent : Event.boundary maxNesting after.length ∈
      (countedProgram options (before ++ after)).events) :
    (program options).Fills options Statement.RowGap before after statements [] :=
  (statements_fills (List.nil_subset _) (insideOutlines_admits options maxNesting).statement
    (fun hlevels => absurd hlevels (by decide)) (Int.le_refl 0) (Int.zero_add _) hdone hevent).2

/-- Tokens are parsed without a diagnostic, and there is a place among them where a list of
statements may go on or end, with as many levels open as may be. A conditional statement or a loop
that opens a block is put in there, whatever stands in the block, as long as its brackets are even.
Then there is one diagnostic, at the brace of that block, and the program is the same with one
complaint put into one of its rows of statements. The row and the place in it are those of the place
among the tokens: any other statement that is put in there stands where the complaint does. -/
theorem parseTokens_contained {before after : List Token} {source : Option String}
    {options : Options} {program : List Statement}
    (hbefore : ∀ token ∈ before, Input.isInside token = true)
    (hparsed : parseTokens (before ++ after) source options = .ok (program, []))
    (hplace : Event.boundary maxNesting (Input.ofTokens after).lexemes.length ∈
      (countedProgram options (Input.ofTokens (before ++ after)).lexemes).events) :
    ∃ fill, Statement.RowGap program fill ∧
      (∀ (header group : List Token) (opening closing : Token),
        IsHeader (header.map Token.toLexeme) → opening.isMarkOf ["\x7b"] = true →
        (∀ token ∈ group, Input.isInside token = true) → Balanced (group.map Token.toLexeme) →
        closing.isMarkOf ["\x7d"] = true →
        parseTokens (before ++ (header ++ opening :: (group ++ closing :: after))) source options =
          .ok (fill (.error (.nestingTooDeep (some opening.toLexeme))),
            [{ kind := .unexpectedToken
               message :=
                "Unexpected token " ++ opening.description ++ ", nesting too deep (limit 64)"
               location := some opening.location
               snippet := (source.map (Diagnostic.snippetAt · opening.location.line)).getD ""
               pointer := Diagnostic.caret opening.location.column }])) ∧
      ∀ word semicolon : Token, semicolon.isMarkOf [";"] = true →
        (word.isWordOf ["break"] = true →
          parseTokens (before ++ word :: semicolon :: after) source options =
            .ok (fill .breakLoop, [])) ∧
        (word.isWordOf ["continue"] = true →
          parseTokens (before ++ word :: semicolon :: after) source options =
            .ok (fill .continueLoop, [])) := by
  have hprogram := program_of_parseTokens hparsed
  rw [Input.lexemes_ofTokens_append _ hbefore] at hprogram hplace
  obtain ⟨-, fill, hgap, hfill⟩ := program_fills hprogram hplace
  have hput {row : List Token} {item : Statement} {reports : List Report}
      (hrow : ∀ token ∈ row, Input.isInside token = true)
      (hinsertable : Insertable options (row.map Token.toLexeme)
        (Input.ofTokens after).lexemes item reports) :
      parseTokens (before ++ (row ++ after)) source options =
        .ok (fill item, ((Input.ofTokens (before ++ (row ++ after))).reportTo reports
          (.empty source)).reported) := by
    have hdone : Parser.program options (Input.ofTokens (before ++ (row ++ after))).lexemes =
        .done (fill item) [] reports := by
      rw [Input.lexemes_ofTokens_append _ hbefore, Input.lexemes_ofTokens_append _ hrow]
      exact hfill hinsertable
    exact parseTokens_of_done source hdone
  refine ⟨fill, hgap, ?_, ?_⟩
  · intro header group opening closing hheader hopening hgroup hbalanced hclosing
    have hheaderInside : ∀ token ∈ header, Input.isInside token = true := fun token hmem =>
      bne_iff_ne.mpr (hheader.kind_ne _ (List.mem_map_of_mem hmem))
    have hopeningInside := Input.isInside_of_isMarkOf hopening
    have hclosingInside := Input.isInside_of_isMarkOf hclosing
    have hfront : ∀ token ∈ before ++ header, Input.isInside token = true :=
      List.forall_mem_append.mpr ⟨hbefore, hheaderInside⟩
    have hblockInside : ∀ token ∈ opening :: (group ++ [closing]),
        Input.isInside token = true := List.forall_mem_cons.mpr ⟨hopeningInside,
      List.forall_mem_append.mpr ⟨hgroup, List.forall_mem_singleton.mpr hclosingInside⟩⟩
    have hreply := hput (List.forall_mem_append.mpr ⟨hheaderInside, hblockInside⟩) <| by
      simpa using insertable_tooDeep hopening hclosing hbalanced _ hheader
    have hlexemes : (Input.ofTokens (opening :: (group ++ closing :: after))).lexemes =
        opening.toLexeme :: (group.map Token.toLexeme ++
          closing.toLexeme :: (Input.ofTokens after).lexemes) := by
      simpa using Input.lexemes_ofTokens_append after hblockInside
    have htoken := @Input.tokenAt_behind _ (group ++ closing :: after) _ hfront hopeningInside
    rw [hlexemes] at htoken
    simp only [List.append_assoc, List.cons_append, List.nil_append, List.length_cons,
      List.length_append, List.length_map] at hreply htoken
    rw [hreply, Input.reportTo, Diagnostic.Collector.reportAll, Diagnostic.Collector.empty]
    simp only [List.map_cons, List.map_nil, Input.placeOf, htoken, List.nil_append]
    rw [Token.make_eq_diagnosis]
    rfl
  · intro word semicolon hsemicolon
    have hclosed {text : String} {item : Statement} (hword : word.isWordOf [text] = true)
        (hparser : behindWord options none text = some (closed item)) :
        parseTokens (before ++ word :: semicolon :: after) source options =
          .ok (fill item, []) := by
      have hinside : ∀ token ∈ [word, semicolon], Input.isInside token = true := by
        simpa using ⟨Input.isInside_of_isWordOf hword, Input.isInside_of_isMarkOf hsemicolon⟩
      exact hput hinside (insertable_closed hword hparser hsemicolon _)
    exact ⟨fun hword => hclosed hword rfl, fun hword => hclosed hword rfl⟩

/-- A function value behind sixty-three unary operators has a block at the greatest depth. Another
block in it is one complaint, though its brackets are of different kinds. -/
theorem parseTokens_contained_function :
    let token (kind : Kind) (text : String) := Token.mk ⟨kind, text⟩ (.start "main")
    let opening := token .symbol "\x7b"
    let closing := token .symbol "\x7d"
    let before := List.replicate 63 (token .operator "!") ++
      [token .symbol "(", token .symbol ")", token .operator "->", token .identifier "int", opening]
    let after := [closing, token .symbol ";"]
    let header := [token .keyword "if", token .identifier "x"]
    let group := [token .symbol "(", token .symbol "\x7d"]
    ∃ program fill, parseTokens (before ++ after) none {} = .ok (program, []) ∧
      Statement.RowGap program fill ∧
      parseTokens (before ++ (header ++ opening :: (group ++ closing :: after))) none {} =
        .ok (fill (.error (.nestingTooDeep (some opening.toLexeme))),
          [{ kind := .unexpectedToken
             message := "Unexpected token symbol '\x7b', nesting too deep (limit 64)"
             location := some (.start "main")
             snippet := ""
             pointer := "^" }]) := by
  intro token opening closing before after header group
  have hsilent : (parseTokens (before ++ after) none {}).map Prod.snd = .ok [] := by decide +kernel
  obtain ⟨program, hparsed⟩ : ∃ program,
      parseTokens (before ++ after) none {} = .ok (program, []) := by
    cases hreply : parseTokens (before ++ after) none {} with
    | error halt =>
      rw [hreply] at hsilent
      cases hsilent
    | ok parsed =>
      rw [hreply] at hsilent
      exact ⟨parsed.1, congrArg Except.ok (Prod.ext rfl (Except.ok.inj hsilent))⟩
  have hinside : ∀ token ∈ before, Input.isInside token = true := by decide
  have hplace : Event.boundary maxNesting (Input.ofTokens after).lexemes.length ∈
      (countedProgram {} (Input.ofTokens (before ++ after)).lexemes).events := by decide +kernel
  have hheader : IsHeader (header.map Token.toLexeme) :=
    .conditional rfl ⟨.inl rfl, fun hkind => nomatch hkind⟩
  have hbalanced : Balanced (group.map Token.toLexeme) := by
    refine ⟨fun front hfront => ?_, by decide⟩
    rw [← List.mem_inits] at hfront
    revert front
    decide
  obtain ⟨fill, hgap, hcontained, -⟩ := parseTokens_contained hinside hparsed hplace
  exact ⟨program, fill, hparsed, hgap,
    hcontained header group opening closing hheader rfl (by decide) hbalanced rfl⟩

end BraceLang
