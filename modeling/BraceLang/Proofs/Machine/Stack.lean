import BraceLang.Proofs.Machine.Room

/-!
# How deep the calls of the grammar go

Every construct that can stand inside itself opens a level, apart from the further branches of a
conditional statement. So the calls of the grammar go deeper by some for every level that is left,
and by one for every further branch. With all levels left a program opens nine hundred and
seventy-seven calls inside one another at most, and one for each further branch.
-/

namespace BraceLang

open BraceLang.Machine

namespace Outline

variable {α : Type} {allowance : Allowance} {known : Option Lexeme} {calls : Nat}

section Primitives

/-- Either answer to a question leads to no more calls than both parts have. -/
theorem CallsAtMost.either {question : Parser Bool} {yes no : Parser α}
    {asking : Outline allowance known question} {affirmed : Outline allowance none yes}
    {denied : Outline allowance none no} (hasking : asking.CallsAtMost calls)
    (haffirmed : affirmed.CallsAtMost calls) (hdenied : denied.CallsAtMost calls) :
    (asking.either affirmed denied).CallsAtMost calls :=
  ⟨hasking, fun _ => ⟨fun _ => haffirmed, fun _ => hdenied⟩⟩

/-- A test of the next lexeme opens no call. -/
theorem test_calls (question : Option Lexeme → Bool) :
    (test question : Outline allowance known _).CallsAtMost calls :=
  ⟨trivial, fun _ => trivial⟩

/-- Neither does passing a mark that may be next. -/
theorem accept_calls (marks : List String) :
    (accept marks : Outline allowance none _).CallsAtMost calls :=
  .either (test_calls _) ⟨trivial, fun _ => trivial⟩ trivial

/-- Nor one that has to be next. -/
theorem expectMark_calls (mark : String) (expected : Expected) :
    (expectMark mark expected : Outline allowance none _).CallsAtMost calls :=
  .either (test_calls _) trivial trivial

/-- Nor a word that has to be next. -/
theorem expectWord_calls (word : String) (expected : Expected) :
    (expectWord word expected : Outline allowance none _).CallsAtMost calls :=
  .either (test_calls _) trivial trivial

/-- Nor an identifier. -/
theorem identifier_calls (expected : Expected) :
    (identifier expected : Outline allowance none _).CallsAtMost calls :=
  ⟨trivial, fun _ => ⟨fun _ => ⟨trivial, fun _ => trivial⟩, fun _ => trivial⟩⟩

/-- Nor any word. -/
theorem word_calls (expected : Expected) :
    (word expected : Outline allowance none _).CallsAtMost calls :=
  ⟨trivial, fun _ => ⟨fun _ => ⟨trivial, fun _ => trivial⟩, fun _ => trivial⟩⟩

variable (setting : Setting) (opened : Nat) (state : State)

/-- The answer to a question about what is next. -/
theorem carryOut_test (question : Option Lexeme → Bool) :
    (test question : Outline allowance known _).carryOut setting opened state =
      .done (question (lexemesOf state.unread).head?) state := by
  unfold test carryOut
  rw [State.found, found_current]
  cases (lexemesOf state.unread).head? <;> rfl

/-- The answer to whether a word is next. -/
theorem carryOut_nextIsWord (words : List String) :
    (nextIsWord words : Outline allowance known _).carryOut setting opened state =
      .done ((lexemesOf state.unread).head?.any (·.isWordOf words)) state :=
  carryOut_test setting opened state _

/-- The answer to whether a mark is next. -/
theorem carryOut_nextIsMark (marks : List String) :
    (nextIsMark marks : Outline allowance known _).carryOut setting opened state =
      .done ((lexemesOf state.unread).head?.any (·.isMarkOf marks)) state :=
  carryOut_test setting opened state _

/-- The answer to whether the end is next. -/
theorem carryOut_atEnd :
    (atEnd : Outline allowance known _).carryOut setting opened state =
      .done (lexemesOf state.unread).head?.isNone state :=
  carryOut_test setting opened state _

end Primitives

section Lists

variable {item : Parser α} {outline : Outline allowance none item}

/-- Items with commas between them open no more calls than one item. -/
theorem CallsAtMost.separated (houtline : outline.CallsAtMost calls) :
    outline.separated.CallsAtMost calls := by
  refine ⟨houtline, fun first => ⟨fun items => ?_, fun items => trivial⟩⟩
  exact .either (accept_calls _) ⟨houtline, fun _ => trivial⟩ trivial

/-- So do items up to a closing mark. -/
theorem CallsAtMost.listed (houtline : outline.CallsAtMost calls) (closing : String) :
    (outline.listed closing).CallsAtMost calls := by
  refine .either (test_calls _) trivial ⟨houtline, fun first => ⟨fun items => ?_, fun _ => trivial⟩⟩
  refine .either (accept_calls _) (.either (test_calls _) trivial ?_) trivial
  exact ⟨houtline, fun _ => trivial⟩

/-- And items with separators behind them. -/
theorem CallsAtMost.upTo {item : List α → Parser α}
    {outline : ∀ items, Outline allowance none (item items)}
    (houtline : ∀ items, (outline items).CallsAtMost calls) (separators : List String)
    (closing : String) : (Outline.upTo outline separators closing).CallsAtMost calls := by
  refine ⟨fun items => ?_, fun items => trivial⟩
  refine .either (test_calls _) trivial (.either (test_calls _) trivial ?_)
  exact ⟨houtline items, fun _ => .either (accept_calls _) trivial trivial⟩

/-- A list of statements is a call of its own, in which each of the statements is read. -/
theorem CallsAtMost.statements {levels : Nat} {literals : Bool} {statement : Parser Statement}
    {outline : Outline ⟨true, levels, literals⟩ none statement}
    (houtline : outline.CallsAtMost calls) (closing : List String) :
    (outline.statements closing).CallsAtMost (calls + 1) := by
  refine ⟨Nat.succ_pos _, fun items => ?_, fun items => trivial⟩
  refine .either (test_calls _) trivial (.either (test_calls _) trivial ?_)
  exact ⟨houtline, fun _ => trivial⟩

end Lists

end Outline

/-- How many calls the parts of a layer open where some levels are left. -/
structure LayerOutlines.Shallow {layer : Layer} {levels : Nat}
    (outlines : LayerOutlines layer levels) : Prop where
  type {literals : Bool} :
    (outlines.type : Outline ⟨false, levels, literals⟩ none layer.type).CallsAtMost
      (2 * levels + 2)
  expression (literals : Bool) : (outlines.expression literals).CallsAtMost (15 * levels + 12)
  operand (literals : Bool) : (outlines.operand literals).CallsAtMost (15 * levels + 4)
  statement : outlines.statement.CallsAtMost (15 * levels + 15)

/-- How many calls are opened by what is inside a construct, if anything is. -/
inductive InsideOutlines.Shallow : {inside : Option Layer} → {levels : Nat} →
    InsideOutlines inside levels → Prop
  | nothing : Shallow .nothing
  | layer {layer : Layer} {levels : Nat} {outlines : LayerOutlines layer levels} :
    outlines.Shallow → Shallow (.layer outlines)

/-- How many calls are opened by what follows a word, if it begins a statement. -/
def WordOutline.CallsAtMost {levels : Nat} {found : Option (Parser Statement)} :
    WordOutline levels found → Nat → Prop
  | .word behind, calls => behind.CallsAtMost calls
  | .other, _ => True

/-- What follows a word is a call of its own. -/
theorem WordOutline.CallsAtMost.either {levels calls : Nat} {found : Option (Parser Statement)}
    {otherwise : Parser Statement} {outline : WordOutline levels found}
    {other : Outline ⟨true, levels, true⟩ none otherwise} (houtline : outline.CallsAtMost calls)
    (hother : other.CallsAtMost (calls + 1)) : (outline.either other).CallsAtMost (calls + 1) := by
  cases outline with
  | word behind => exact ⟨Nat.succ_pos _, trivial, fun _ => houtline⟩
  | other => exact hother

/-- Where the word begins no statement nothing follows it. -/
theorem WordOutline.callsAtMost_of_none {levels calls : Nat} {found : Option (Parser Statement)}
    {outline : WordOutline levels found} (hnone : found = none) : outline.CallsAtMost calls := by
  subst hnone
  cases outline
  trivial

namespace InsideOutlines

variable {options : Options} {inside : Option Layer} {levels : Nat} {literals : Bool}
  {outlines : InsideOutlines inside levels}

/-- What is nested opens the calls of what is inside, where one level less is left. -/
theorem Shallow.nested {α : Type} {lists : Bool} {parser : Layer → Parser α} {calls : Nat}
    {outline : ∀ {layer : Layer} {fewer : Nat}, LayerOutlines layer fewer →
      Outline ⟨lists, fewer, literals⟩ none (parser layer)} (hshallow : outlines.Shallow)
    (houtline : ∀ {layer fewer} {outlines : LayerOutlines layer fewer}, outlines.Shallow →
      levels = fewer + 1 → (outline outlines).CallsAtMost calls) :
    (outlines.nested outline).CallsAtMost calls := by
  cases hshallow with
  | nothing => trivial
  | layer hlayer => exact houtline hlayer rfl

variable (hshallow : outlines.Shallow)
include hshallow

section Types

/-- The arguments of a type are types inside. -/
theorem typeArguments_calls :
    (outlines.typeArguments : Outline ⟨false, levels, literals⟩ none _).CallsAtMost
      (2 * levels + 1) := by
  refine ⟨Nat.succ_pos _, ?_, fun _ => ⟨Outline.expectMark_calls _ _, fun _ => trivial⟩⟩
  exact hshallow.nested fun hlayer hlevels => hlayer.type.separated.mono (by omega)

/-- A type may have arguments. -/
theorem type_calls :
    (outlines.type : Outline ⟨false, levels, literals⟩ none _).CallsAtMost (2 * levels + 2) := by
  refine ⟨Nat.succ_pos _, Outline.word_calls _, fun name => ?_⟩
  exact .either (Outline.accept_calls _) ⟨typeArguments_calls hshallow, fun _ => trivial⟩ trivial

/-- So may one behind a colon. -/
theorem annotation_calls :
    (outlines.annotation : Outline ⟨false, levels, literals⟩ none _).CallsAtMost
      (2 * levels + 2) :=
  .either (Outline.accept_calls _) ⟨type_calls hshallow, fun _ => trivial⟩ trivial

end Types

section Expressions

/-- A block has statements inside. -/
theorem block_calls :
    (outlines.block : Outline ⟨true, levels, literals⟩ none _).CallsAtMost (15 * levels + 2) := by
  refine ⟨Nat.succ_pos _, ?_, fun _ => ⟨Outline.expectMark_calls _ _, fun _ => trivial⟩⟩
  refine hshallow.nested fun hlayer hlevels => ?_
  refine ⟨Outline.expectMark_calls _ _, fun _ => ?_⟩
  exact (hlayer.statement.statements ["\x7d"]).mono (by omega)

/-- The arguments of a call are read by two calls and have expressions inside. -/
theorem arguments_calls :
    (outlines.arguments : Outline ⟨true, levels, literals⟩ none _).CallsAtMost
      (15 * levels + 1) := by
  refine ⟨Nat.succ_pos _, hshallow.nested fun hlayer hlevels => ?_⟩
  refine ⟨trivial, fun _ => ⟨by omega, ?_, fun _ => ?_⟩⟩
  · exact ((hlayer.expression true).listed ")").mono (by omega)
  · exact ⟨Outline.expectMark_calls _ _, fun _ => trivial⟩

/-- A function value has a type and a block. -/
theorem functionValue_calls :
    (outlines.functionValue : Outline ⟨true, levels, literals⟩ none _).CallsAtMost
      (15 * levels + 3) := by
  refine ⟨Nat.succ_pos _, ⟨by omega, trivial⟩, fun _ => ⟨⟨by omega, trivial⟩, fun _ => ?_⟩⟩
  refine ⟨Outline.expectMark_calls _ _, fun _ => ⟨?_, fun returnType => ⟨?_, fun _ => trivial⟩⟩⟩
  · exact (type_calls hshallow).mono (by omega)
  · exact (block_calls hshallow).mono (by omega)

/-- An expression in parentheses stands inside. -/
theorem group_calls :
    (outlines.group : Outline ⟨true, levels, literals⟩ none _).CallsAtMost (15 * levels) := by
  refine hshallow.nested fun hlayer hlevels => ⟨trivial, fun _ => ⟨?_, fun value => ?_⟩⟩
  · exact (hlayer.expression true).mono (by omega)
  · exact ⟨Outline.expectMark_calls _ _, fun _ => trivial⟩

/-- So do the items of an array. -/
theorem array_calls :
    (outlines.array : Outline ⟨true, levels, literals⟩ none _).CallsAtMost (15 * levels) := by
  refine hshallow.nested fun hlayer hlevels => ⟨trivial, fun _ => ⟨by omega, ?_, fun _ => ?_⟩⟩
  · exact ((hlayer.expression true).listed "]").mono (by omega)
  · exact ⟨Outline.expectMark_calls _ _, fun _ => trivial⟩

/-- And the operand of a unary operator. -/
theorem unary_calls (operator : UnaryOperator) :
    (outlines.unary operator : Outline ⟨true, levels, literals⟩ none _).CallsAtMost
      (15 * levels) := by
  refine hshallow.nested fun hlayer hlevels => ⟨trivial, fun _ => ⟨⟨by omega, ?_⟩, fun _ => trivial⟩⟩
  exact (hlayer.operand literals).mono (by omega)

omit hshallow in
/-- The field of a struct literal has an expression. -/
theorem literalField_calls {layer : Layer} {outlines : LayerOutlines layer levels}
    (hlayer : outlines.Shallow) (struct : String) (given : List (String × Expression)) :
    (literalField outlines struct given).CallsAtMost (15 * levels + 12) := by
  refine ⟨trivial, fun lexeme => ⟨fun _ => ⟨fun _ => trivial, fun _ => ⟨trivial, fun _ => ?_⟩⟩,
    fun _ => trivial⟩⟩
  exact .either (Outline.accept_calls _) ⟨hlayer.expression true, fun _ => trivial⟩ trivial

/-- The fields of a struct literal stand inside. -/
theorem structLiteral_calls (name : String) :
    (outlines.structLiteral name : Outline ⟨true, levels, literals⟩ none _).CallsAtMost
      (15 * levels + 1) := by
  refine ⟨Nat.succ_pos _, hshallow.nested fun hlayer hlevels => ?_⟩
  refine ⟨trivial, fun _ => ⟨?_, fun fields => ?_⟩⟩
  · exact .upTo (fun given => (literalField_calls hlayer name given).mono (by omega)) _ _
  · exact ⟨Outline.expectMark_calls _ _, fun _ => trivial⟩

/-- A name that is called has arguments. -/
theorem called_calls (name : Name) :
    (outlines.called name : Outline ⟨true, levels, literals⟩ none _).CallsAtMost
      (15 * levels + 1) :=
  .either (Outline.test_calls _) ⟨arguments_calls hshallow, fun _ => trivial⟩ trivial

/-- What stands behind a name is one of these, or the arguments of a type. -/
theorem named_calls (name : String) :
    (outlines.named name : Outline ⟨true, levels, literals⟩ none _).CallsAtMost
      (15 * levels + 1) := by
  refine fun answer => ⟨Outline.test_calls _, fun brace => ⟨fun _ => ?_, fun _ => ?_⟩⟩
  · exact structLiteral_calls hshallow name
  · refine ⟨trivial, fun generic => ⟨fun _ => ⟨trivial, fun _ => ⟨?_, fun typeArguments => ?_⟩⟩,
      fun _ => called_calls hshallow _⟩⟩
    · exact (typeArguments_calls hshallow).mono (by omega)
    · exact called_calls hshallow _

omit hshallow in
/-- Where no expression begins no call is opened. -/
theorem noExpression_calls {allowance : Allowance} {calls : Nat} :
    (noExpression : Outline allowance none _).CallsAtMost calls :=
  ⟨trivial, fun _ => ⟨trivial, fun _ => trivial⟩⟩

/-- What begins with a mark opens the most calls if it is a function value. -/
theorem marked_calls (lexeme : Lexeme) (hmark : lexeme.isMark = true) :
    (outlines.marked lexeme hmark : Outline ⟨true, levels, literals⟩ _ _).CallsAtMost
      (15 * levels + 3) := by
  refine ⟨fun _ => ⟨trivial, fun second => ⟨fun _ => functionValue_calls hshallow, fun _ => ?_⟩⟩,
    fun _ => ⟨fun _ => ?_, fun _ => ?_⟩⟩
  · exact (group_calls hshallow).mono (by omega)
  · exact (array_calls hshallow).mono (by omega)
  · cases UnaryOperator.ofSpelling? lexeme.text with
    | none => exact noExpression_calls
    | some operator => exact (unary_calls hshallow operator).mono (by omega)

/-- A primary expression opens a call for itself. -/
theorem primary_calls :
    (outlines.primary : Outline ⟨true, levels, literals⟩ none _).CallsAtMost
      (15 * levels + 4) := by
  refine ⟨Nat.succ_pos _, noExpression_calls, fun lexeme => ?_⟩
  have hname (text : String) : (outlines.named text : Outline ⟨true, levels, literals⟩ none _
      ).CallsAtMost (15 * levels + 2) := (named_calls hshallow text).mono (by omega)
  obtain ⟨kind, text⟩ := lexeme
  cases kind with
  | number | string => exact ⟨trivial, fun _ => trivial⟩
  | keyword | identifier =>
    exact ⟨fun _ => ⟨trivial, fun _ => trivial⟩,
      fun _ => ⟨fun _ => ⟨by omega, trivial, fun _ => hname text⟩, fun _ => noExpression_calls⟩⟩
  | symbol => exact marked_calls hshallow ⟨.symbol, text⟩ rfl
  | operator => exact marked_calls hshallow ⟨.operator, text⟩ rfl
  | endOfInput => exact noExpression_calls

/-- So does an access to a scope. -/
theorem nextAccess_calls (scope : Expression) :
    (outlines.nextAccess scope : Outline ⟨true, levels, literals⟩ none _).CallsAtMost
      (15 * levels + 4) := by
  refine .either (Outline.accept_calls _) ⟨by omega, ?_, fun name => ?_⟩ trivial
  · exact Outline.identifier_calls _
  · refine .either (Outline.test_calls _) ⟨?_, fun _ => trivial⟩ trivial
    exact (arguments_calls hshallow).mono (by omega)

/-- An operand opens no more calls than its parts. -/
theorem operand_calls :
    (outlines.operand : Outline ⟨true, levels, literals⟩ none _).CallsAtMost (15 * levels + 4) :=
  ⟨primary_calls hshallow, fun _ => nextAccess_calls hshallow⟩

omit hshallow in
/-- The right sides of operators are calls inside one another, as many as there are precedences. -/
theorem binary_calls {operand : Parser Expression} {allowance : Allowance}
    {outline : Outline allowance none operand} {calls : Nat} (houtline : outline.CallsAtMost calls)
    (count : Nat) : (binary outline count).CallsAtMost (calls + count) := by
  induction count with
  | zero => exact houtline
  | succ count ih =>
    refine ⟨ih.mono (by omega), fun left held => ⟨⟨trivial, fun _ => trivial⟩, fun operator => ?_⟩⟩
    cases operator with
    | none => trivial
    | some operator => exact ⟨trivial, fun _ => ⟨⟨by omega, ih⟩, fun _ => trivial⟩⟩

/-- An expression has up to seven right sides inside one another. -/
theorem expressionAbove_calls (minimum : Int) :
    (outlines.expressionAbove minimum : Outline ⟨true, levels, literals⟩ none _).CallsAtMost
      (15 * levels + 12) := by
  have hcount : Parser.precedencesAbove minimum ≤ 7 := by
    unfold Parser.precedencesAbove
    omega
  refine ⟨Nat.succ_pos _, fun _ => ?_, fun _ => ?_⟩
  · exact (binary_calls (operand_calls hshallow) _).mono (by omega)
  · exact (primary_calls hshallow).mono (by omega)

/-- So has an expression with any operators. -/
theorem expression_calls :
    (outlines.expression : Outline ⟨true, levels, literals⟩ none _).CallsAtMost
      (15 * levels + 12) := expressionAbove_calls hshallow (-1)

end Expressions

section Statements

omit hshallow in
/-- A statement that is nothing but its word opens no call. -/
theorem closed_calls (statement : Statement) {calls : Nat} :
    (closed statement : Outline ⟨true, levels, literals⟩ none _).CallsAtMost calls :=
  ⟨Outline.expectMark_calls _ _, fun _ => trivial⟩

/-- A declaration has a type and an expression, or a function value. -/
theorem declaration_calls (binding : Binding) :
    (outlines.declaration binding).CallsAtMost (15 * levels + 12) := by
  refine ⟨Outline.identifier_calls _, fun name => ⟨?_, fun type => ?_⟩⟩
  · exact (annotation_calls hshallow).mono (by omega)
  · refine ⟨Outline.expectMark_calls _ _, fun _ => .either trivial ?_ ?_⟩
    · refine ⟨(functionValue_calls hshallow).mono (by omega), fun value => ?_⟩
      exact .either (Outline.test_calls _) trivial
        ⟨Outline.expectMark_calls _ _, fun _ => trivial⟩
    · refine ⟨expression_calls hshallow, fun value => ?_⟩
      exact ⟨Outline.expectMark_calls _ _, fun _ => trivial⟩

/-- A condition is read by a call of its own. -/
theorem condition_calls :
    (outlines.condition : Outline ⟨true, levels, literals⟩ none _).CallsAtMost
      (15 * levels + 13) :=
  ⟨Nat.succ_pos _, expression_calls hshallow⟩

/-- A branch has a condition and a block. -/
theorem branch_calls :
    (outlines.branch : Outline ⟨true, levels, literals⟩ none _).CallsAtMost
      (15 * levels + 13) := by
  refine ⟨condition_calls hshallow, fun condition => ⟨?_, fun body => trivial⟩⟩
  exact (block_calls hshallow).mono (by omega)

omit hshallow in
/-- Reads a further branch from its second word on. -/
def furtherBranch (outlines : InsideOutlines inside levels) (others : List Branch) :
    Outline ⟨true, levels, literals⟩ none
      (Parser.advance >>= fun _ => Parser.branch inside >>= fun next =>
        pure (Turn.again (next :: others, (none : Option (List Statement))))) :=
  .bind .advance fun _ =>
  .bind outlines.branch fun next =>
  .pure (Turn.again (next :: others, none))

omit hshallow in
/-- Reads the block for when no branch is taken. -/
def lastBlock (outlines : InsideOutlines inside levels) (others : List Branch) :
    Outline ⟨true, levels, literals⟩ none
      (Parser.block inside >>= fun body => pure (Turn.finish (others, some body))) :=
  .bind outlines.block fun body =>
  .pure (Turn.finish (others, some body))

omit hshallow in
/-- What is carried out for a further branch depends on the words that are next. Only where there
are two of them it is a call. -/
theorem carryOut_nextBranch (others : List Branch × Option (List Statement)) (setting : Setting)
    (opened : Nat) (state : State) :
    (outlines.nextBranch others : Outline ⟨true, levels, literals⟩ none _).carryOut setting opened
        state =
      if (lexemesOf state.unread).head?.any (·.isWordOf ["else"]) then
        if (lexemesOf state.unread).tail.head?.any (·.isWordOf ["if"]) then
          (outlines.furtherBranch others.1 : Outline ⟨true, levels, literals⟩ none _).call.carryOut
            setting opened (state.pass setting)
        else
          (outlines.lastBlock others.1 : Outline ⟨true, levels, literals⟩ none _).carryOut setting
            opened (state.pass setting)
      else .done (.finish (others.1, none)) state := by
  have hcarried : (outlines.nextBranch others : Outline ⟨true, levels, literals⟩ none _).carryOut
      setting opened state =
        ((Outline.nextIsWord ["else"] : Outline ⟨true, levels, literals⟩ none _).carryOut setting
          opened state).bind fun answer behind =>
            if answer then
              ((Outline.nextIsWord ["if"] : Outline ⟨true, levels, literals⟩ none _).carryOut
                setting opened (behind.pass setting)).bind fun answer behind =>
                  if answer then
                    (outlines.furtherBranch others.1).call.carryOut setting opened behind
                  else (outlines.lastBlock others.1).carryOut setting opened behind
            else .done (.finish (others.1, none)) behind := rfl
  have hpass : lexemesOf (state.pass setting).unread = (lexemesOf state.unread).tail :=
    lexemesOf_pass setting state.unread
  rw [hcarried, Outline.carryOut_nextIsWord, Outcome.bind, Outline.carryOut_nextIsWord,
    Outcome.bind, hpass]

/-- A further branch is a call that is paid for by the words that begin it: in front of them a
branch more is unread than behind. -/
theorem nextBranch_isLink (others : List Branch × Option (List Statement)) {setting : Setting}
    (opened : Nat) (state : State)
    (hroom : setting.RoomFor (opened + (15 * levels + 13) + links (lexemesOf state.unread))) :
    ((outlines.nextBranch others : Outline ⟨true, levels, literals⟩ none _).carryOut setting opened
      state).IsLink state.unread := by
  have hfurther : (outlines.furtherBranch others.1 :
      Outline ⟨true, levels, literals⟩ none _).CallsAtMost (15 * levels + 13) :=
    ⟨trivial, fun _ => ⟨branch_calls hshallow, fun _ => trivial⟩⟩
  have hlast : (outlines.lastBlock others.1 :
      Outline ⟨true, levels, literals⟩ none _).CallsAtMost (15 * levels + 13) :=
    ⟨(block_calls hshallow).mono (by omega), fun _ => trivial⟩
  have hpass : lexemesOf (state.pass setting).unread = (lexemesOf state.unread).tail :=
    lexemesOf_pass setting state.unread
  rw [carryOut_nextBranch]
  split
  · next helse =>
    obtain ⟨lexeme, rest, hunread, hlexeme⟩ := Parser.exists_cons_of_head_any helse
    rw [hunread, List.tail_cons] at hpass ⊢
    have hsame : links (lexemesOf (state.pass setting).unread) ≤ links (lexemesOf state.unread) :=
      links_le_of_suffix (by rw [hpass, hunread]; exact List.suffix_cons _ _)
    split
    · next hif =>
      have hlinks : links (lexemesOf state.unread) = links rest + 1 := by
        rw [hunread, links, hlexeme, hif, Bool.and_self, Bool.toNat_true, Nat.add_comm]
      have hcall : setting.RoomFor (opened + 1) := hroom.mono (by omega)
      rw [Outline.carryOut, if_pos hcall.hasRoom]
      -- the words in front of the branch are passed, and their call is paid for by them
      refine ⟨hfurther.hasRoom (opened + 1) _ (hroom.mono (by rw [hpass]; omega)), ?_⟩
      intro next behind hagain
      have hbehind := links_carryOut_le (outlines.furtherBranch others.1) hagain
      rw [hpass] at hbehind
      omega
    · refine ⟨hlast.hasRoom opened _ (hroom.mono (by omega)), fun next behind hagain => ?_⟩
      unfold lastBlock at hagain
      rw [Outline.carryOut] at hagain
      cases hblock : outlines.block.carryOut setting opened (state.pass setting) with
      | done body behind =>
        rw [hblock] at hagain
        cases hagain
      | failed | stopped =>
        rw [hblock] at hagain
        cases hagain
  · refine ⟨.done _ _, fun next behind hagain => ?_⟩
    cases hagain

/-- The branches of a conditional statement open no more calls than one of them, apart from those
that are paid for. -/
theorem conditional_calls :
    (outlines.conditional : Outline ⟨true, levels, literals⟩ none _).CallsAtMost
      (15 * levels + 13) := by
  refine ⟨branch_calls hshallow, fun first => ⟨?_, fun branches => trivial⟩⟩
  exact fun others setting opened state hroom =>
    nextBranch_isLink hshallow others opened state hroom

/-- A loop over a condition has a condition and a block. -/
theorem whileLoop_calls :
    (outlines.whileLoop : Outline ⟨true, levels, literals⟩ none _).CallsAtMost
      (15 * levels + 13) := by
  refine ⟨condition_calls hshallow, fun condition => ⟨?_, fun body => trivial⟩⟩
  exact (block_calls hshallow).mono (by omega)

omit hshallow in
/-- The word that declares a binding opens no call. -/
theorem binding_calls {allowance : Allowance} {calls : Nat} :
    (binding : Outline allowance none _).CallsAtMost calls := by
  refine .either (Outline.test_calls _) ⟨trivial, fun _ => trivial⟩ ?_
  exact .either (Outline.test_calls _) ⟨trivial, fun _ => trivial⟩ trivial

/-- So has a loop over the items of something. -/
theorem forLoop_calls :
    (outlines.forLoop : Outline ⟨true, levels, literals⟩ none _).CallsAtMost
      (15 * levels + 13) := by
  refine ⟨binding_calls, fun binding => ⟨Outline.identifier_calls _, fun name => ?_⟩⟩
  refine ⟨Outline.expectWord_calls _ _, fun _ => ⟨condition_calls hshallow, fun iterable => ?_⟩⟩
  exact ⟨(block_calls hshallow).mono (by omega), fun body => trivial⟩

/-- A return may have an expression. -/
theorem returnValue_calls : outlines.returnValue.CallsAtMost (15 * levels + 12) := by
  refine .either (Outline.test_calls _) ⟨Outline.expectMark_calls _ _, fun _ => trivial⟩ ?_
  refine ⟨expression_calls hshallow, fun value => ?_⟩
  exact ⟨Outline.expectMark_calls _ _, fun _ => trivial⟩

/-- The fields of a struct have types. -/
theorem struct_calls :
    (outlines.struct : Outline ⟨false, levels, literals⟩ none _).CallsAtMost (2 * levels + 2) := by
  refine ⟨Outline.identifier_calls _, fun name => ⟨Outline.expectMark_calls _ _, fun _ => ?_⟩⟩
  refine ⟨.upTo (fun _ => ?_) _ _, fun fields => ?_⟩
  · refine ⟨Outline.identifier_calls _, fun name => ⟨Outline.expectMark_calls _ _, fun _ => ?_⟩⟩
    exact ⟨type_calls hshallow, fun type => trivial⟩
  · exact ⟨Outline.expectMark_calls _ _, fun _ => trivial⟩

/-- The parameters of a function have types. -/
theorem parameters_calls :
    (outlines.parameters : Outline ⟨false, levels, literals⟩ none _).CallsAtMost
      (2 * levels + 4) := by
  have hparameter : (outlines.parameter : Outline ⟨false, levels, literals⟩ none _).CallsAtMost
      (2 * levels + 3) :=
    ⟨Nat.succ_pos _, Outline.identifier_calls _,
      fun name => ⟨annotation_calls hshallow, fun type => trivial⟩⟩
  refine ⟨Nat.succ_pos _, Outline.expectMark_calls _ _, fun _ => ⟨hparameter.listed ")", ?_⟩⟩
  exact fun items => ⟨Outline.expectMark_calls _ _, fun _ => trivial⟩

/-- So has what a function returns. -/
theorem returnType_calls (stated : Bool) :
    (outlines.returnType stated : Outline ⟨false, levels, literals⟩ none _).CallsAtMost
      (2 * levels + 3) := by
  refine ⟨Nat.succ_pos _, .either (Outline.accept_calls _) ?_ ?_⟩
  · exact ⟨type_calls hshallow, fun type => trivial⟩
  · exact ⟨fun _ => trivial, fun _ => trivial⟩

/-- A function has parameters, what it returns, and a block. -/
theorem callable_calls (expected : Expected) (stated : Bool) :
    (outlines.callable expected stated : Outline ⟨true, levels, literals⟩ none _).CallsAtMost
      (15 * levels + 4) := by
  refine ⟨Outline.identifier_calls _, fun name => ⟨?_, fun parameters => ⟨?_, fun returned => ?_⟩⟩⟩
  · exact (parameters_calls hshallow).mono (by omega)
  · exact (returnType_calls hshallow stated).mono (by omega)
  · exact ⟨(block_calls hshallow).mono (by omega), fun body => trivial⟩

/-- The methods of a struct are calls of their own. -/
theorem impl_calls :
    (outlines.impl : Outline ⟨true, levels, literals⟩ none (Parser.impl options inside)).CallsAtMost
      (15 * levels + 5) := by
  refine ⟨Outline.identifier_calls _, fun name => ⟨Outline.expectMark_calls _ _, fun _ => ?_⟩⟩
  refine ⟨fun methods => ?_, fun methods => ⟨Outline.expectMark_calls _ _, fun _ => trivial⟩⟩
  refine .either (Outline.test_calls _) trivial (.either (Outline.test_calls _) trivial ?_)
  have hcallable : (outlines.callable .methodName options.methodsStateReturn :
      Outline ⟨true, levels, literals⟩ none _).CallsAtMost (15 * levels + 4) :=
    callable_calls hshallow _ _
  exact ⟨⟨Nat.succ_pos _, .either (Outline.test_calls _) ⟨trivial, fun _ => hcallable⟩ hcallable⟩,
    fun item => trivial⟩

/-- An expression that stands as a statement is read by a call of its own. -/
theorem expressionStatement_calls :
    outlines.expressionStatement.CallsAtMost (15 * levels + 13) := by
  refine ⟨Nat.succ_pos _, expression_calls hshallow, fun value => ?_⟩
  exact ⟨Outline.expectMark_calls _ _, fun _ => trivial⟩

/-- What the word of a statement leads to opens the most calls if it has a condition. -/
theorem behindWord_calls (word : String) :
    (outlines.behindWord word : WordOutline levels (Parser.behindWord options inside word)
      ).CallsAtMost (15 * levels + 13) := by
  have hdeclaration (binding : Binding) :
      (outlines.declaration binding).CallsAtMost (15 * levels + 13) :=
    (declaration_calls hshallow binding).mono (by omega)
  unfold InsideOutlines.behindWord
  split
  · exact hdeclaration .variable
  · exact hdeclaration .constant
  · exact conditional_calls hshallow
  · exact whileLoop_calls hshallow
  · exact forLoop_calls hshallow
  · exact closed_calls .breakLoop
  · exact closed_calls .continueLoop
  · exact (returnValue_calls hshallow).mono (by omega)
  · exact (struct_calls hshallow).mono (by omega)
  · exact (impl_calls hshallow).mono (by omega)
  · exact ⟨(callable_calls hshallow _ _).mono (by omega), fun function => trivial⟩
  · refine WordOutline.callsAtMost_of_none ?_
    unfold Parser.behindWord
    split
    all_goals first | rfl | contradiction

/-- What follows a lexeme opens as many if it is a word. -/
theorem statementAt_calls (lexeme : Lexeme) :
    (outlines.statementAt lexeme : WordOutline levels (if lexeme.isWord then
      Parser.behindWord options inside lexeme.text else none)).CallsAtMost (15 * levels + 13) := by
  obtain ⟨kind, text⟩ := lexeme
  cases kind with
  | keyword | identifier => exact behindWord_calls hshallow text
  | number | string | operator | symbol | endOfInput => trivial

/-- A statement begins with a word, which leads to a call of its own, or is an expression. -/
theorem statement_calls :
    (outlines.statement : Outline ⟨true, levels, true⟩ none (Parser.statement options inside)
      ).CallsAtMost (15 * levels + 15) := by
  have hexpression : outlines.expressionStatement.CallsAtMost (15 * levels + 14) :=
    (expressionStatement_calls hshallow).mono (by omega)
  refine ⟨Nat.succ_pos _, hexpression, fun lexeme => ?_⟩
  exact WordOutline.CallsAtMost.either (statementAt_calls hshallow lexeme) hexpression

end Statements

/-- A layer opens the calls of its parts. -/
theorem around_shallow :
    (outlines.around : LayerOutlines (.around options inside) levels).Shallow where
  type := type_calls hshallow
  expression _ := expression_calls hshallow
  operand _ := operand_calls hshallow
  statement := statement_calls hshallow

end InsideOutlines

/-- So does every layer, from the innermost one outwards. -/
theorem insideOutlines_shallow (options : Options) (levels : Nat) :
    (insideOutlines options levels).Shallow := by
  induction levels with
  | zero => exact .nothing
  | succ levels ih => exact .layer (InsideOutlines.around_shallow ih)

/-- How many calls a program opens inside one another at most, apart from one for each further
branch. -/
def maxCalls : Nat := 15 * maxNesting + 17

/-- A program is a list of statements, with all levels left. -/
theorem programOutline_calls (options : Options) :
    (programOutline options).CallsAtMost maxCalls := by
  have hstatements : (Outline.statements (insideOutlines options maxNesting).statement [] :
      Outline ⟨true, maxNesting, true⟩ none (Parser.program options)).CallsAtMost
        (15 * maxNesting + 16) :=
    .statements (InsideOutlines.statement_calls (insideOutlines_shallow options maxNesting)) []
  exact ⟨Nat.succ_pos _, hstatements⟩

end BraceLang
