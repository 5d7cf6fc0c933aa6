import BraceLang.Proofs.Containment.Rows

/-!
# Gaps in what is parsed: expressions

Every parser of the grammar allows for a row to be put in at a boundary, if those of the layer
inside it do. The parts of an expression are read in turn, so the boundary is in one of them, and
those behind it carry the gap on.
-/

namespace BraceLang

open BraceLang.Parser

variable {options : Options}

/-- The parsers of a layer allow for rows to be put in, and on the innermost layer the statements
are those where no more levels may be opened. -/
structure LayerOutlines.Admits {layer : Layer} {levels : Nat} (options : Options)
    (outlines : LayerOutlines layer levels) : Prop where
  expression (literals : Bool) : (outlines.expression literals).Admits options Expression.Gap
  operand (literals : Bool) : (outlines.operand literals).Admits options Expression.Gap
  statement : outlines.statement.Admits options Statement.Gap
  innermost : levels = 0 → layer.statement = Parser.statement options none

/-- What is inside a construct allows for rows to be put in, if there is anything. -/
inductive InsideOutlines.Admits (options : Options) :
    {inside : Option Layer} → {levels : Nat} → InsideOutlines inside levels → Prop
  | nothing : Admits options .nothing
  | layer {layer : Layer} {levels : Nat} {outlines : LayerOutlines layer levels} :
    outlines.Admits options → Admits options (.layer outlines)

section Lists

variable {α : Type} {allowance : Allowance} {item : Parser α}
  {outline : Outline allowance none item} {gaps : Gaps α}

/-- A row is put in where one of some items is read. -/
theorem Outline.Admits.listed {closing : String} (houtline : outline.Admits options gaps) :
    (Outline.listed outline closing).Admits options (InList gaps) := by
  have hround (items : List α) : (Outline.nextListed outline closing items).Admits options
      (InTurn (InList gaps) (InList gaps)) := by
    refine .either .accept (.either .nextIsMark .pure ?_) .pure
    exact .bind houtline (.pure fun hitem => .again (.head hitem)) fun _ => .pure
  have hfirst : Carries gaps
      (fun first => Parser.repeating (Parser.nextListed item closing) [first]) (InList gaps) :=
    fun _ _ hgap => Carries.nextListed.repeating (.head hgap)
  have hreverse : Carries (InList gaps) (fun items => (Pure.pure items.reverse : Parser (List α)))
      (InList gaps) := .pure fun hitems => hitems.reverse
  refine .either .nextIsMark .pure (.bind houtline (hfirst.bind hreverse) fun first => ?_)
  exact .bind (.repeating hround .nextListed) hreverse fun _ => .pure

/-- An item may depend on those before it, but not on what stands in their blocks. -/
theorem Outline.Admits.upTo {item : List α → Parser α}
    {outline : ∀ items, Outline allowance none (item items)} {separators : List String}
    {closing : String} (houtline : ∀ items, (outline items).Admits options gaps)
    (hsame : ∀ {items fill}, InList gaps items fill → ∀ filled, item (fill filled) = item items) :
    (Outline.upTo outline separators closing).Admits options (InList gaps) := by
  have hround (items : List α) : (Outline.nextUpTo outline separators closing items).Admits options
      (InTurn (InList gaps) (InList gaps)) := by
    refine .either .nextIsMark .pure (.either .atEnd .pure ?_)
    refine .bind (houtline items) (.after fun _ => ?_) fun _ => .either .accept .pure .pure
    exact .cond (.pure fun hitem => .again (.head hitem)) (.pure fun hitem => .finish (.head hitem))
  exact .bind (.repeating hround (.nextUpTo hsame)) (.pure .reverse) fun _ => .pure

end Lists

section Rounds

/-- An access to the scope of an expression carries the gaps of the expression on. -/
theorem Carries.nextAccess {inside : Option Layer} :
    Carries Expression.Gap (Parser.nextAccess inside) (InTurn Expression.Gap Expression.Gap) := by
  refine .after fun access => .cond ?_ (.pure .finish)
  refine .after fun name => .after fun call => .cond ?_ ?_
  · exact .after fun arguments => .pure fun hscope => .again (.memberScope hscope)
  · exact .pure fun hscope => .again (.member hscope)

/-- A further operand carries the gaps of what is to the left of it on. -/
theorem Carries.nextOperand {behind : Parser Expression} {precedence : Nat} :
    Carries Expression.Gap (Parser.nextOperand behind precedence)
      (InTurn Expression.Gap Expression.Gap) := by
  refine .after fun found => ?_
  cases found with
  | none => exact .pure .finish
  | some operator => exact .after fun _ => .after fun _ => .pure fun hleft => .again (.left hleft)

/-- A field of a struct literal depends on the names of those before it, and not on what stands in
their blocks. -/
theorem Parser.literalField_eq {layer : Layer} {struct : String}
    {fields : List (String × Expression)} {fill : Statement → List (String × Expression)}
    (hfields : InList (InSecond Expression.Gap) fields fill) (item : Statement) :
    literalField layer struct (fill item) = literalField layer struct fields := by
  obtain ⟨⟨hvalue⟩⟩ := hfields
  unfold literalField
  simp only [List.any_append, List.any_cons]

end Rounds

namespace InsideOutlines.Admits

variable {inside : Option Layer} {levels : Nat} {literals : Bool}
  {outlines : InsideOutlines inside levels}

/-- A row is put in one level further in. -/
theorem nested {α : Type} {lists : Bool} {gaps : Gaps α} {parser : Layer → Parser α}
    {outline : ∀ {layer : Layer} {fewer : Nat}, LayerOutlines layer fewer →
      Outline ⟨lists, fewer, literals⟩ none (parser layer)}
    (hadmits : outlines.Admits options)
    (houtline : ∀ {layer : Layer} {fewer : Nat} {outlines : LayerOutlines layer fewer},
      outlines.Admits options → (outline outlines).Admits options gaps) :
    (outlines.nested outline).Admits options gaps := by
  cases hadmits with
  | nothing => exact .tooDeep
  | layer hlayer => exact .nested (houtline hlayer)

variable (hadmits : outlines.Admits options)
include hadmits

/-- The brace that opens a block is passed before its first boundary, so there is a lexeme in front
of every place in a block. -/
theorem block : (outlines.block : Outline ⟨true, levels, literals⟩ none _).Admits options
    Statement.RowGap := by
  refine .call (.bind (hadmits.nested fun hlayer => ?_)
    (.after fun _ => .pure fun hbody => hbody) fun _ => .behind .expectMark fun _ => .pure)
  intro before after rest value depth hpositive hdepth _ hdone hevent
  have hcalm {fewer : Nat} : (Outline.expectMark "\x7b" .blockOpening :
      Outline ⟨true, fewer, literals⟩ none _).Admits options NoGaps := .expectMark
  rcases Outline.bind_cases _ _ hpositive hdepth hdone hevent with
    ⟨_, middle, hopening, -, hseen⟩ | ⟨_, between, hopening, hbody, hseen⟩
  · obtain ⟨-, -, _, hno, -⟩ := hcalm hpositive hdepth (fun _ h => nomatch h) hopening hseen
    exact hno.elim
  · obtain ⟨hbetween, hfills⟩ := statements_fills (List.Subset.refl _) hlayer.statement
      hlayer.innermost hpositive hdepth hbody hseen
    obtain ⟨brace, rfl, hbrace⟩ := exists_cons_of_expectMark hopening
    refine ⟨?_, hfills.behind fun row => expectMark_cons hbrace _⟩
    rcases hbetween with ⟨-, rfl⟩ | hample
    · exact ⟨brace, [], rfl, fun _ => Lexeme.isMarkOf_disjoint hbrace (by decide)⟩
    · exact hample.of_suffix (List.suffix_cons brace between)

/-- The arguments of a call. -/
theorem arguments : (outlines.arguments : Outline ⟨true, levels, literals⟩ none _).Admits options
    (InList Expression.Gap) := by
  refine .call (hadmits.nested fun hlayer => .behind .advance fun _ => .call ?_)
  refine .bind (.allowing (hlayer.expression true).listed)
    (.after fun _ => .pure fun hitems => hitems) fun _ => ?_
  exact .behind .expectMark fun _ => .pure

/-- A function value, which has a block for its body. -/
theorem functionValue : (outlines.functionValue : Outline ⟨true, levels, literals⟩ none _).Admits
    options Expression.Gap := by
  refine .call (.behind (.call .advance) fun _ => .behind (.call .advance) fun _ => ?_)
  refine .behind .expectMark fun _ => .behind (.plain _) fun _ => ?_
  exact .bind hadmits.block (.pure .function) fun _ => .pure

/-- An expression in parentheses. -/
theorem group : (outlines.group : Outline ⟨true, levels, literals⟩ none _).Admits options
    Expression.Gap := by
  refine hadmits.nested fun hlayer => .behind .advance fun _ => ?_
  refine .bind (.allowing (hlayer.expression true)) (.after fun _ => .pure fun hvalue => hvalue)
    fun _ => ?_
  exact .behind .expectMark fun _ => .pure

/-- An array. -/
theorem array : (outlines.array : Outline ⟨true, levels, literals⟩ none _).Admits options
    Expression.Gap := by
  refine hadmits.nested fun hlayer => .behind .advance fun _ => .call ?_
  refine .bind (.allowing (hlayer.expression true).listed) (.after fun _ => .pure .array)
    fun _ => ?_
  exact .behind .expectMark fun _ => .pure

/-- A unary operation. -/
theorem unary (operator : UnaryOperator) :
    (outlines.unary operator : Outline ⟨true, levels, literals⟩ none _).Admits options
      Expression.Gap := by
  refine hadmits.nested fun hlayer => .behind .advance fun _ => ?_
  exact .bind (.call (hlayer.operand literals)) (.pure .unary) fun _ => .pure

/-- The arguments of a call behind a name. -/
theorem called (name : Name) :
    (outlines.called name : Outline ⟨true, levels, literals⟩ none _).Admits options
      Expression.Gap := by
  refine .either .nextIsMark ?_ .pure
  exact .bind hadmits.arguments (.pure .call) fun _ => .pure

omit hadmits in
/-- A field of a struct literal. -/
theorem literalField {layer : Layer} {outlines : LayerOutlines layer levels}
    (hlayer : outlines.Admits options) (struct : String) (given : List (String × Expression)) :
    (InsideOutlines.literalField outlines struct given).Admits options
      (InSecond Expression.Gap) := by
  refine .look .reject fun _ => .anyway (.cond (fun _ => ?_) fun _ => .reject)
  refine .cond (fun _ => .rejectPassing) fun _ => .behind .advance fun _ => ?_
  exact .either .accept (.bind (hlayer.expression true) (.pure .mk) fun _ => .pure) .pure

/-- A struct literal. -/
theorem structLiteral (name : String) :
    (outlines.structLiteral name : Outline ⟨true, levels, literals⟩ none _).Admits options
      Expression.Gap := by
  refine .call (hadmits.nested fun hlayer => .behind .advance fun _ => ?_)
  refine .bind (.allowing (.upTo (literalField hlayer name) fun hfields => literalField_eq hfields))
    (.after fun _ => .pure .structLiteral) fun _ => ?_
  exact .behind .expectMark fun _ => .pure

/-- What may stand behind a name. -/
theorem named (name : String) :
    (outlines.named name : Outline ⟨true, levels, literals⟩ none _).Admits options
      Expression.Gap := by
  refine .asking (.behind .nextIsMark fun _ => .cond (fun _ => hadmits.structLiteral name) fun _ =>
    .behind (.of_step fun _ _ => rfl) fun _ => .cond (fun _ => ?_) fun _ => hadmits.called _)
  exact .behind .advance fun _ => .behind (.plain _) fun _ => hadmits.called _

omit hadmits in
/-- Nothing is read where a lexeme begins no expression. -/
theorem noExpression {allowance : Allowance} :
    (InsideOutlines.noExpression : Outline allowance none _).Admits options Expression.Gap :=
  .behind (.of_step fun _ _ => rfl) fun _ => .behind .advance fun _ => .pure

/-- An expression that begins with a mark. -/
theorem marked (lexeme : Lexeme) (hmark : lexeme.isMark = true) :
    (outlines.marked lexeme hmark : Outline ⟨true, levels, literals⟩ _ _).Admits options
      Expression.Gap := by
  refine .cond (fun _ => .behind (.of_step fun _ _ => rfl) fun _ =>
    .cond (fun _ => hadmits.functionValue) fun _ => hadmits.group) fun _ =>
      .cond (fun _ => .anyway hadmits.array) fun _ => ?_
  generalize UnaryOperator.ofSpelling? lexeme.text = found
  cases found with
  | none => exact .anyway noExpression
  | some operator => exact .anyway (hadmits.unary operator)

/-- A primary expression. -/
theorem primary : (outlines.primary : Outline ⟨true, levels, literals⟩ none _).Admits options
    Expression.Gap := by
  refine .call (.look noExpression fun ⟨kind, text⟩ => ?_)
  cases kind with
  | number => exact .anyway (.behind (.of_step fun _ _ => rfl) fun _ => .pure)
  | string => exact .anyway (.behind .advance fun _ => .pure)
  | keyword | identifier =>
    refine .anyway (.cond (fun _ => .behind .advance fun _ => .pure) fun _ => ?_)
    refine .cond (fun _ => .call (.behind .advance fun _ => ?_)) fun _ => noExpression
    exact hadmits.named text
  | symbol | operator => exact hadmits.marked _ rfl
  | endOfInput => exact .anyway noExpression

/-- An access to the scope of an expression. -/
theorem nextAccess (scope : Expression) :
    (outlines.nextAccess scope : Outline ⟨true, levels, literals⟩ none _).Admits options
      (InTurn Expression.Gap Expression.Gap) := by
  refine .either .accept (.call (.behind .identifier fun _ => .either .nextIsMark ?_ .pure)) .pure
  exact .bind hadmits.arguments (.pure fun hitems => .again (.memberArguments hitems))
    fun _ => .pure

/-- An operand. -/
theorem operand : (outlines.operand : Outline ⟨true, levels, literals⟩ none _).Admits options
    Expression.Gap := by
  refine .bind hadmits.primary (.repeating .nextAccess) fun _ => ?_
  exact .repeating hadmits.nextAccess .nextAccess

section Rows

omit hadmits

variable {allowance : Allowance}

/-- A binary operator and what stands behind it. -/
theorem nextOperand {behind : Parser Expression} {outline : Outline allowance none behind}
    (houtline : outline.Admits options Expression.Gap) (precedence : Nat) (left : Expression) :
    (InsideOutlines.nextOperand outline precedence left).Admits options
      (InTurn Expression.Gap Expression.Gap) := by
  refine .behind (.look .pure fun _ => .pure) fun found => ?_
  cases found with
  | none => exact .pure
  | some operator =>
    refine .behind .advance fun _ => ?_
    exact .bind (.call houtline) (.pure fun hright => .again (.right hright)) fun _ => .pure

/-- A row of operands. -/
theorem binary {operand : Parser Expression} {outline : Outline allowance none operand}
    (houtline : outline.Admits options Expression.Gap) (count : Nat) :
    (InsideOutlines.binary outline count).Admits options Expression.Gap := by
  induction count with
  | zero => exact houtline
  | succ count ih =>
    refine .bind ih (.repeating .nextOperand) fun _ => ?_
    exact .repeating (nextOperand ih (6 - count)) .nextOperand

end Rows

/-- An expression. -/
theorem expression : (outlines.expression : Outline ⟨true, levels, literals⟩ none _).Admits options
    Expression.Gap :=
  .call (.cond (fun _ => binary hadmits.operand _) fun _ => hadmits.primary)

end InsideOutlines.Admits

end BraceLang
