import BraceLang.Parser.Input
import BraceLang.Proofs.Spelling.Statements

/-!
# Accepted programs are spelled by their tokens

With the account of every form, the layers account for one another from the innermost outwards, and
the outermost one for a whole program. A program that is accepted without a report is spelled by the
lexemes of the input, in their order and without a gap.
-/

namespace BraceLang

open Language Spellings

variable {levels : Nat} {inside : Option Layer}

/-- Any outcome. -/
def Outcome.any {α : Type} : Outcome α := fun _ _ _ _ => True

/-- A parser that passes a lexeme has passed one whatever follows it. -/
theorem Reply.Moves.bind {α β : Type} {unread : List Lexeme} {parser : Parser α}
    {next : α → Parser β} (outcome : α → Outcome β) (hparser : (parser unread).Moves unread)
    (hnext : ∀ value rest, (next value rest).Accounts levels rest (outcome value)) :
    ((parser >>= next) unread).Moves unread := by
  cases hreply : parser unread with
  | done value rest reports =>
    rw [hreply] at hparser
    have hshorter : rest.length < unread.length := hparser
    have haccount := hnext value rest
    rw [Parser.bind_of_done next hreply]
    cases hlater : next value rest with
    | done result left later =>
      rw [hlater] at haccount
      obtain ⟨passed, rfl, -⟩ := haccount
      rw [List.length_append] at hshorter
      change left.length < unread.length
      omega
    | failed report left later =>
      rw [hlater] at haccount
      obtain ⟨passed, rfl, -⟩ := haccount
      rw [List.length_append] at hshorter
      change left.length < unread.length
      omega
    | stopped halt => trivial
  | failed report rest reports =>
    rw [hreply] at hparser
    rw [Parser.bind_of_failed next hreply]
    exact hparser
  | stopped halt =>
    rw [Parser.bind_of_stopped next hreply]
    trivial

/-- A numeral that is next is passed. -/
theorem Reply.Moves.numeral (text : String) (rest : List Lexeme) :
    (Parser.numeral text (⟨.number, text⟩ :: rest)).Moves (⟨.number, text⟩ :: rest) := by
  unfold Parser.numeral
  cases Numeral.read text with
  | ok value => exact Nat.lt_succ_self rest.length
  | error error => trivial

/-- Where a number is next, a statement is an expression, which begins with that number. -/
theorem InsideAccounts.number (hinside : InsideAccounts levels inside) (options : Options)
    {lexeme : Lexeme} (hkind : lexeme.kind = .number) (rest : List Lexeme) :
    (Parser.statement options inside (lexeme :: rest)).Moves (lexeme :: rest) := by
  obtain ⟨kind, text⟩ := lexeme
  obtain rfl : kind = .number := hkind
  have hprimary : (Parser.primary inside true (⟨.number, text⟩ :: rest)).Moves
      (⟨.number, text⟩ :: rest) := by
    unfold Parser.primary
    rw [Parser.peek_bind]
    exact .bind (fun _ => Outcome.any) (.numeral text rest) fun value left =>
      @Reply.Accounts.pure _ levels left _ _ trivial
  have hoperand := hprimary.bind _ fun value left => .repeating hinside.nextAccess value left
  have hbinary (count : Nat) : (Parser.binary (Parser.operand inside true) count
      (⟨.number, text⟩ :: rest)).Moves (⟨.number, text⟩ :: rest) := by
    induction count with
    | zero => exact hoperand
    | succ count ih =>
      exact ih.bind _ fun value left => .repeating
        (Reply.Accounts.nextOperand (Reply.Accounts.binary (hinside.operand true) count) _)
        value left
  have hterminated (value : Expression) (left : List Lexeme) :
      ((Parser.terminator >>= fun _ => Pure.pure (Statement.expression value)) left).Accounts
        levels left Outcome.any :=
    .expectMark fun _ _ _ hmark => .cons (Lexeme.isReadable_of_isMarkOf hmark) (.pure trivial)
  unfold Parser.statement
  rw [Parser.peek_bind]
  change ((Parser.expression inside true >>= _) _).Moves _
  exact Reply.Moves.bind (fun _ => Outcome.any) (hbinary 7) hterminated

/-- A layer around one that accounts for what it passes. -/
theorem InsideAccounts.around (hinside : InsideAccounts levels inside) (options : Options) :
    (Layer.around options inside).Accounts levels where
  type := hinside.type
  expression := hinside.expression
  operand := hinside.operand
  statement := hinside.statement options
  number := hinside.number options

/-- What is inside a construct accounts for what it passes, on every level. -/
theorem layerInside_accounts (options : Options) (levels : Nat) :
    InsideAccounts levels (layerInside options levels) := by
  induction levels with
  | zero => exact .none
  | succ levels ih => exact .some (ih.around options)

/-- A row of statements, none of them unclosed, is a program. -/
theorem Statement.mem_programSpellings {program : List Statement} {passed : List Lexeme}
    (hrow : passed ∈ rowSpellings program) : passed ∈ programSpellings program := by
  induction program generalizing passed with
  | nil => exact hrow
  | cons first rest ih =>
    obtain ⟨left, hleft, right, hright, rfl⟩ := mem_mul.mp hrow
    cases rest with
    | nil =>
      obtain rfl : right = [] := hright
      rw [List.append_nil]
      exact .inl hleft
    | cons second rest => exact append_mem_mul hleft (ih hright)

/-- A program. -/
theorem program_accounts (options : Options) (unread : List Lexeme) :
    (Parser.program options unread).Accounts maxNesting unread
      fun program passed rest reports => rest = [] ∧
        (reports = [] → passed ∈ Statement.programSpellings program) := by
  have hlayer := (layerInside_accounts options maxNesting).around options
  refine (statements_accounts hlayer.statement hlayer.number unread).mono ?_
  intro program passed rest reports _ hprogram
  obtain ⟨hcloses, hspelled⟩ := hprogram
  have hend : rest = [] := by
    cases rest with
    | nil => rfl
    | cons lexeme rest => simpa [Lexeme.isMarkOf] using hcloses lexeme rfl
  refine ⟨hend, fun hreports => ?_⟩
  rcases hspelled hreports with hrow | ⟨-, hprogram⟩
  · exact Statement.mem_programSpellings hrow
  · exact hprogram

/-- Every report about an input becomes a diagnostic. -/
theorem Input.reportTo_reported (input : Input) (reports : List Report) (source : Option String) :
    (input.reportTo reports (.empty source)).reported.length = reports.length := by
  simp [reportTo, Diagnostic.Collector.reportAll, Diagnostic.Collector.empty]

/-- There are no diagnostics exactly if there are no reports. -/
theorem Input.reportTo_reported_eq_nil {input : Input} {reports : List Report}
    {source : Option String} :
    (input.reportTo reports (.empty source)).reported = [] ↔ reports = [] := by
  rw [← List.length_eq_zero_iff, reportTo_reported, List.length_eq_zero_iff]

/-- Whatever is parsed without a diagnostic is spelled by the tokens before the end of the input:
all of them, in their order, and no others. -/
theorem parseTokens_spelled {tokens : List Token} {source : Option String} {options : Options}
    {program : List Statement} (haccepted : parseTokens tokens source options = .ok (program, [])) :
    (tokens.takeWhile Input.isInside).map Token.toLexeme ∈ Statement.programSpellings program := by
  rw [← Input.lexemes_ofTokens]
  have haccount := program_accounts options (Input.ofTokens tokens).lexemes
  simp only [parseTokens, Input.parse] at haccepted
  cases hreply : Parser.program options (Input.ofTokens tokens).lexemes with
  | done statements rest reports =>
    rw [hreply] at haccount haccepted
    obtain ⟨passed, hsplit, -, rfl, hspelled⟩ := haccount
    obtain ⟨rfl, hnone⟩ := Prod.mk.inj (Except.ok.inj haccepted)
    have hreports : reports = [] := by
      rw [← List.length_eq_zero_iff, ← Input.reportTo_reported _ _ source, hnone, List.length_nil]
    rw [hsplit, List.append_nil]
    exact hspelled hreports
  | failed report rest reports =>
    rw [hreply] at haccepted
    obtain ⟨-, hnone⟩ := Prod.mk.inj (Except.ok.inj haccepted)
    have hlength := Input.reportTo_reported (Input.ofTokens tokens) (reports ++ [report]) source
    rw [hnone, List.length_append] at hlength
    simp at hlength
  | stopped halt =>
    rw [hreply] at haccepted
    cases haccepted

/-- A declaration of a function value at the end of the input is spelled without its semicolon, and
what follows the end does not matter. -/
theorem parseTokens_spelled_unclosed :
    let lexemes : List Lexeme := [⟨.keyword, "let"⟩, ⟨.identifier, "f"⟩, ⟨.operator, "="⟩,
      ⟨.symbol, "("⟩, ⟨.symbol, ")"⟩, ⟨.operator, "->"⟩, ⟨.identifier, "int"⟩, ⟨.symbol, "\x7b"⟩,
      ⟨.keyword, "return"⟩, ⟨.symbol, "("⟩, ⟨.number, "1"⟩, ⟨.symbol, ")"⟩, ⟨.symbol, ";"⟩,
      ⟨.symbol, "\x7d"⟩]
    let program : List Statement := [.declaration .variable "f" none
      (.function (.mk "int" []) [.returnValue (some (.number (.integer 1)))])]
    let behind : List Lexeme := [⟨.endOfInput, ""⟩, ⟨.symbol, ")"⟩]
    let tokens := (lexemes ++ behind).map fun lexeme => Token.mk lexeme (.start "main")
    parseTokens tokens none {} = .ok (program, []) ∧
      lexemes ∈ Statement.programSpellings program := by
  intro lexemes program behind tokens
  have haccepted : parseTokens tokens none {} = .ok (program, []) := rfl
  exact ⟨haccepted, parseTokens_spelled haccepted⟩

end BraceLang
