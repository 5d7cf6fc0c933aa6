import BraceLang.Proofs.Outline.Locality

/-!
# Parsers that end in a mark

A construct in brackets ends in its closing mark. It has passed that mark where it comes to a value,
so it did not have to look at anything behind it: not even the next lexeme has to stay the same.
-/

namespace BraceLang

open BraceLang.Parser

/-- What is behind a row does not matter to a parser that comes to a value within the row, however
little of the row is left. -/
structure Parser.IsSealed {α : Type} (parser : Parser α) : Prop where
  runs : parser.Runs
  ignores ⦃near left far other : List Lexeme⦄ ⦃value : α⦄ : far.length ≤ other.length →
    parser (near ++ far) = .done value (left ++ far) [] →
    Ample near ∧ parser (near ++ other) = .done value (left ++ other) []

namespace Parser.IsSealed

variable {α β : Type} {allowance : Allowance}

/-- What never comes to a value. -/
theorem of_faulty {parser : Parser α} (hruns : parser.Runs)
    (hfaulty : ∀ unread, (parser unread).Faulty) : parser.IsSealed where
  runs := hruns
  ignores := fun _ _ _ _ _ _ hdone => absurd hdone (hfaulty _ _ _)

/-- The mark that is expected at the end has been passed. -/
theorem lastMark {mark : String} {expected : Expected} {value : α} (hmark : mark ∉ deciders) :
    (do
      Parser.expectMark mark expected
      return value).IsSealed where
  runs := (expectMark_runs mark expected).bind fun _ => .pure _
  ignores := by
    intro near left far other result _ hdone
    obtain ⟨_, rest, hexpect, hpure⟩ := exists_of_bind_eq_silent hdone
    obtain ⟨rfl, rfl, -⟩ := Reply.done.inj hpure
    obtain ⟨lexeme, rfl, hlexeme⟩ := exists_cons_of_expectMark hexpect
    have hother : lexeme.isMarkOf deciders = false :=
      Lexeme.isMarkOf_disjoint hlexeme fun text htext => by rwa [List.mem_singleton.mp htext]
    exact ⟨⟨lexeme, left, rfl, fun _ => hother⟩, bind_of_silent _ (expectMark_cons hlexeme _)⟩

/-- What is read in front of something that ends in a mark. -/
theorem bind {parser : Parser α} {next : α → Parser β} (outline : Outline allowance none parser)
    (hnext : ∀ value, (next value).IsSealed) : (parser >>= next).IsSealed where
  runs := outline.runs.bind fun value => (hnext value).runs
  ignores := by
    intro near left far other value hlength hdone
    obtain ⟨first, middle, hfirst, hlast⟩ := exists_of_bind_eq_silent hdone
    obtain ⟨between, rfl, -⟩ := (hnext first).runs.exists_middle hlast
    obtain ⟨hample, hother⟩ := (hnext first).ignores hlength hlast
    refine ⟨hample.of_suffix (outline.runs.left_suffix hfirst), ?_⟩
    rw [bind_of_silent _ (outline.isLocal hlength (fun _ h => nomatch h) hample hfirst)]
    exact hother

/-- What is read in front of a mark that is expected at the end. -/
theorem closing {parser : Parser α} {mark : String} {expected : Expected} {make : α → β}
    (outline : Outline allowance none parser) (hmark : mark ∉ deciders) :
    (do
      let value ← parser
      Parser.expectMark mark expected
      return make value).IsSealed :=
  .bind outline fun _ => .lastMark hmark

/-- Either way behind a question. -/
theorem either {question : Parser Bool} {yes no : Parser α}
    (asking : Outline allowance none question) (hyes : yes.IsSealed) (hno : no.IsSealed) :
    (question >>= fun answer => if answer = true then yes else no).IsSealed := by
  refine .bind asking fun answer => ?_
  split
  · exact hyes
  · exact hno

/-- What depends on the lexeme that is next. -/
theorem look {next : Option Lexeme → Parser α} (hnext : ∀ found, (next found).IsSealed) :
    (peek >>= next).IsSealed where
  runs := peek_runs.bind fun found => (hnext found).runs
  ignores := by
    intro near left far other value hlength hdone
    rw [peek_bind] at hdone ⊢
    obtain ⟨hample, hother⟩ := (hnext _).ignores hlength hdone
    obtain ⟨lexeme, rest, rfl⟩ := List.exists_cons_of_ne_nil hample.ne_nil
    exact ⟨hample, hother⟩

/-- What is sealed stays so behind a token that is advanced past. -/
theorem advance {next : Unit → Parser β} (hnext : (next ()).IsSealed) :
    (Parser.advance >>= next).IsSealed :=
  bind (.advance : Outline ⟨false, 0, true⟩ none Parser.advance) fun _ => hnext

/-- It stays so behind a mark that has to be there. -/
theorem expectMark {mark : String} {expected : Expected} {next : Unit → Parser β}
    (hnext : (next ()).IsSealed) : (Parser.expectMark mark expected >>= next).IsSealed :=
  bind (.expectMark mark expected : Outline ⟨false, 0, true⟩ none _) fun _ => hnext

/-- A value that is made of what ends in a mark. -/
theorem returning {parser : Parser α} (make : α → β) (hparser : parser.IsSealed) :
    (parser >>= fun value => pure (make value)).IsSealed where
  runs := hparser.runs.bind fun _ => .pure _
  ignores := by
    intro near left far other value hlength hdone
    obtain ⟨first, middle, hfirst, hlast⟩ := exists_of_bind_eq_silent hdone
    obtain ⟨rfl, rfl, -⟩ := Reply.done.inj hlast
    obtain ⟨hample, hother⟩ := hparser.ignores hlength hfirst
    exact ⟨hample, bind_of_silent _ hother⟩

/-- A statement that is sealed is not recovered where nothing is reported. -/
theorem recovered {parser : Parser Statement} (hparser : parser.IsSealed) :
    (Parser.recovered parser).IsSealed where
  runs := hparser.runs.recovered
  ignores := by
    intro near left far other value hlength hdone
    obtain ⟨hample, hother⟩ := hparser.ignores hlength (done_of_recovered hdone)
    exact ⟨hample, recovered_of_done hother⟩

/-- It stays so when a token may be passed by. -/
theorem passing {parser : Parser α} (hparser : parser.IsSealed) :
    (Parser.passing parser).IsSealed where
  runs := hparser.runs.passing
  ignores := by
    intro near left far other value hlength hdone
    obtain ⟨rest, hinner, hrest⟩ := done_of_passing hdone
    have hsuffix : left ++ far <:+ rest := by
      rw [hrest]
      split
      · exact List.suffix_refl rest
      · exact List.tail_suffix rest
    obtain ⟨passed, rfl⟩ := hsuffix
    rw [← List.append_assoc] at hinner hrest
    obtain ⟨hample, hother⟩ := hparser.ignores hlength hinner
    refine ⟨hample, ?_⟩
    rw [Parser.passing, hother]
    simp only [List.length_append, Nat.add_lt_add_iff_right] at hrest ⊢
    split at hrest
    · next hless =>
      rw [if_pos hless, ← List.append_cancel_right hrest]
    · next hless =>
      have hnear := List.length_pos_iff.mpr hample.ne_nil
      obtain ⟨first, others, hcons⟩ := List.exists_cons_of_length_pos
        (l := passed ++ left) (by rw [List.length_append]; omega)
      rw [hcons] at hrest ⊢
      obtain rfl : left = others := List.append_cancel_right hrest
      rw [if_neg hless]
      rfl

end Parser.IsSealed

namespace InsideOutlines

variable {inside : Option Layer} {levels : Nat} (outlines : InsideOutlines inside levels)
include outlines

/-- What is read one level further in ends in a mark if it does on every layer. -/
theorem nested_sealed {α : Type} {parser : Layer → Parser α}
    (hparser : ∀ {layer : Layer} {fewer : Nat}, LayerOutlines layer fewer →
      (parser layer).IsSealed) : (BraceLang.nested inside parser).IsSealed := by
  cases outlines with
  | nothing =>
    exact {
      runs := .nested fun _ hlayer => nomatch hlayer
      ignores := fun _ _ _ _ _ _ hdone => nomatch hdone }
  | layer outlines => exact hparser outlines

/-- The arguments of a call end in a parenthesis. -/
theorem arguments_sealed : (Parser.arguments inside).IsSealed := by
  refine outlines.nested_sealed fun layer => .advance ?_
  exact .closing (.listed (layer.expression true) ")") (by decide)

/-- An expression in parentheses ends in one. -/
theorem group_sealed : (Parser.group inside).IsSealed := by
  refine outlines.nested_sealed fun layer => .advance ?_
  exact .closing (layer.expression true) (by decide)

/-- An array ends in a bracket. -/
theorem array_sealed : (Parser.array inside).IsSealed := by
  refine outlines.nested_sealed fun layer => .advance ?_
  exact .closing (.listed (layer.expression true) "]") (by decide)

/-- A block ends in its brace. -/
theorem block_sealed : (Parser.block inside).IsSealed := by
  have body : Outline ⟨true, levels, true⟩ none (BraceLang.nested inside fun layer => do
      Parser.expectMark "\x7b" .blockOpening
      Parser.statements layer.statement ["\x7d"]) :=
    outlines.nested fun layer => .bind (.expectMark "\x7b" .blockOpening) fun _ =>
      .statements layer.statement ["\x7d"]
  exact .closing body (by decide)

/-- A function value ends in the brace of its body. -/
theorem functionValue_sealed : (Parser.functionValue inside).IsSealed := by
  refine .advance (.advance (.expectMark ?_))
  refine .bind (outlines.type : Outline ⟨false, levels, true⟩ none _) fun returnType => ?_
  exact outlines.block_sealed.returning _

/-- The arguments of a type end in an angle bracket. -/
theorem typeArguments_sealed : (Parser.typeArguments inside).IsSealed := by
  have types : Outline ⟨false, levels, true⟩ none
      (BraceLang.nested inside fun layer => Parser.separated layer.type) :=
    outlines.nested fun layer => .separated layer.type
  exact .closing types (by decide)

end InsideOutlines

section Innermost

open InsideOutlines (nothing)

namespace Parser

/-- A block cannot be read where no more levels may be opened, and so nothing that ends in one. -/
theorem block_faulty (unread : List Lexeme) : (block none unread).Faulty :=
  .bind fun _ _ hdone => nomatch hdone

/-- Nor can a function value. -/
theorem functionValue_faulty (unread : List Lexeme) : (functionValue none unread).Faulty := by
  refine .behind fun _ _ => .behind fun _ _ => .behind fun _ _ => .behind fun _ _ => ?_
  exact .bind (block_faulty _)

/-- Nor can a condition and its block. -/
theorem branch_faulty (unread : List Lexeme) : (branch none unread).Faulty :=
  .behind fun _ _ => .bind (block_faulty _)

/-- Nor can a loop over a condition. -/
theorem whileLoop_faulty (unread : List Lexeme) : (whileLoop none unread).Faulty :=
  .behind fun _ _ => .bind (block_faulty _)

/-- Nor can a loop over items. -/
theorem forLoop_faulty (unread : List Lexeme) : (forLoop none unread).Faulty := by
  refine .behind fun _ _ => .behind fun _ _ => .behind fun _ _ => .behind fun _ _ => ?_
  exact .bind (block_faulty _)

/-- Nor can a function with a name. -/
theorem callable_faulty (expected : Expected) (stated : Bool) (unread : List Lexeme) :
    (callable none expected stated unread).Faulty := by
  refine .behind fun _ _ => .behind fun _ _ => .behind fun _ _ => ?_
  exact .bind (block_faulty _)

/-- A statement that is nothing but its word ends in a semicolon. -/
theorem closed_sealed (statement : Statement) : (closed statement).IsSealed :=
  .lastMark (by decide)

/-- An identifier is read in front of something that ends in a mark. -/
private theorem sealed_behind_identifier {expected : Expected} {next : String → Parser Statement}
    (hnext : ∀ name, (next name).IsSealed) : (identifier expected >>= next).IsSealed :=
  .bind (.identifier expected : Outline ⟨false, 0, true⟩ none _) hnext

/-- A declaration ends in a semicolon, as a function value cannot be read in it. -/
theorem declaration_sealed (binding : Binding) : (declaration none binding).IsSealed := by
  have hvalue {next : Expression → Parser Statement} (hnext : ∀ value, (next value).Runs) :
      (functionValue none >>= next).IsSealed := by
    have hruns : (functionValue none).Runs :=
      (nothing.functionValue : Outline ⟨true, 0, true⟩ none _).runs
    exact .of_faulty (hruns.bind hnext) fun _ => .bind (functionValue_faulty _)
  refine sealed_behind_identifier fun name => ?_
  refine .bind (nothing.annotation : Outline ⟨false, 0, true⟩ none _) fun type => .expectMark ?_
  refine .either (.nextIsFunctionValue : Outline ⟨false, 0, true⟩ none _) (hvalue fun value => ?_) ?_
  · exact .either atEnd_runs (.pure _) ((expectMark_runs _ _).bind fun _ => .pure _)
  · exact .closing (nothing.expression : Outline ⟨true, 0, true⟩ none _) (by decide)

/-- A return ends in a semicolon. -/
theorem returnValue_sealed : (returnValue none).IsSealed := by
  refine .either (.nextIsMark [";"] : Outline ⟨false, 0, true⟩ none _) (.lastMark (by decide)) ?_
  exact .closing (nothing.expression : Outline ⟨true, 0, true⟩ none _) (by decide)

/-- A struct ends in its brace. -/
theorem struct_sealed : (struct none).IsSealed := by
  refine sealed_behind_identifier fun name => .expectMark ?_
  have fields : Outline ⟨false, 0, true⟩ none (upTo (fun _ => structField none) [",", ";"] "\x7d") :=
    .upTo (fun _ => nothing.structField) _ _
  exact .closing fields (by decide)

/-- The methods of a struct end in a brace. -/
theorem impl_sealed (options : Options) : (impl options none).IsSealed := by
  refine sealed_behind_identifier fun name => .expectMark ?_
  have methods : Outline ⟨true, 0, true⟩ none (repeating (nextMethod options none) []) :=
    .repeating false [] nothing.nextMethod
  exact .closing methods (by decide)

/-- An expression that stands as a statement ends in a semicolon. -/
theorem expressionStatement_sealed : (expressionStatement none).IsSealed :=
  .closing (nothing.expression : Outline ⟨true, 0, true⟩ none _) (by decide)

/-- Whatever is a statement by its word ends in a semicolon or in a brace. -/
theorem behindWord_sealed {options : Options} {word : String} {parser : Parser Statement}
    (hparser : behindWord options none word = some parser) : parser.IsSealed := by
  have hfaulty {statement : Parser Statement} (outline : Outline ⟨true, 0, true⟩ none statement)
      (hfaulty : ∀ unread, (statement unread).Faulty) : statement.IsSealed :=
    .of_faulty outline.runs hfaulty
  cases hparser using Parser.behindWord_cases with
  | declaration binding => exact declaration_sealed binding
  | conditional => exact hfaulty nothing.conditional fun _ => .bind (branch_faulty _)
  | whileLoop => exact hfaulty nothing.whileLoop whileLoop_faulty
  | forLoop => exact hfaulty nothing.forLoop forLoop_faulty
  | breakLoop => exact closed_sealed .breakLoop
  | continueLoop => exact closed_sealed .continueLoop
  | returnValue => exact returnValue_sealed
  | struct => exact struct_sealed
  | impl => exact impl_sealed options
  | function => exact hfaulty nothing.function fun _ => .bind (callable_faulty _ _ _)

/-- Where no more levels may be opened, every statement ends in a semicolon or in a brace of its
own. -/
theorem statement_sealed (options : Options) : (statement options none).IsSealed := by
  refine .look fun found => ?_
  cases found with
  | none => exact expressionStatement_sealed
  | some lexeme =>
    cases hword : (if lexeme.isWord then behindWord options none lexeme.text else none) with
    | none =>
      simp only [hword]
      exact expressionStatement_sealed
    | some parser =>
      have hparser : behindWord options none lexeme.text = some parser := by
        split at hword
        · exact hword
        · cases hword
      simp only [hword]
      exact .advance (behindWord_sealed hparser)

end Parser

end Innermost

end BraceLang
