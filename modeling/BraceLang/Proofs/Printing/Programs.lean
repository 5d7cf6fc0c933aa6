import BraceLang.Parser.Input
import BraceLang.Proofs.Printing.Statements

/-!
# Printed programs are parsed to what they were

The statements about the single forms are put together along the structure of a program: every part
of it is read from what it is printed as, where as many levels may be opened as it opens. Since the
parser allows for a number of levels, so may the program.
-/

namespace BraceLang

open Lexeme

variable {options : Options} {worded : String → Bool}

/-- Each of some expressions that can be printed can be. -/
theorem Expression.isPrintable_of_mem {items : List Expression}
    (hprintable : arePrintable options items = true) :
    ∀ item ∈ items, item.isPrintable options = true := by
  induction items with
  | nil => nofun
  | cons first rest ih =>
    rw [arePrintable, Bool.and_eq_true] at hprintable
    exact List.forall_mem_cons.mpr ⟨hprintable.1, ih hprintable.2⟩

/-- Each of some statements that can be printed can be. -/
theorem Statement.isPrintable_of_mem {items : List Statement}
    (hprintable : arePrintable options items = true) :
    ∀ item ∈ items, item.isPrintable options = true := by
  induction items with
  | nil => nofun
  | cons first rest ih =>
    rw [arePrintable, Bool.and_eq_true] at hprintable
    exact List.forall_mem_cons.mpr ⟨hprintable.1, ih hprintable.2⟩

mutual

/-- An expression is read from what it is printed as. -/
theorem Expression.isRead {levels : Nat} (value : Expression)
    (hprintable : value.isPrintable options = true) (hlevels : value.levels ≤ levels) :
    value.IsRead options worded levels := by
  match value with
  | .number value => exact number_reads hprintable
  | .string text => exact string_reads text
  | .boolean value => exact boolean_reads value
  | .name name => exact name_reads hprintable hlevels
  | .array items =>
    rw [Expression.levels] at hlevels
    rw [Expression.isPrintable] at hprintable
    obtain ⟨left, rfl⟩ : ∃ left, levels = left + 1 := ⟨levels - 1, by omega⟩
    exact array_reads (Expression.areRead items hprintable (by omega))
      (Expression.isPrintable_of_mem hprintable)
  | .structLiteral name fields =>
    rw [Expression.levels] at hlevels
    simp only [Expression.isPrintable, Bool.and_eq_true, decide_eq_true_eq] at hprintable
    obtain ⟨left, rfl⟩ : ∃ left, levels = left + 1 := ⟨levels - 1, by omega⟩
    exact structLiteral_reads hprintable.1.1 hprintable.1.2
      (Expression.fieldsAreRead fields hprintable.2 (by omega))
  | .binary left operator right =>
    rw [Expression.levels] at hlevels
    simp only [Expression.isPrintable, Bool.and_eq_true] at hprintable
    obtain ⟨less, rfl⟩ : ∃ less, levels = less + 1 := ⟨levels - 1, by omega⟩
    have hleft : left.IsRead options worded less := Expression.isRead left hprintable.1 (by omega)
    have hright : right.IsRead options worded less :=
      Expression.isRead right hprintable.2 (by omega)
    exact operation_reads (group_reads_operand hleft hprintable.1)
      (group_reads_operand hright hprintable.2)
  | .unary operator operand =>
    rw [Expression.levels] at hlevels
    rw [Expression.isPrintable] at hprintable
    obtain ⟨left, rfl⟩ : ∃ left, levels = left + 2 := ⟨levels - 2, by omega⟩
    exact unary_reads (Expression.isRead operand hprintable (by omega)) hprintable
  | .member scope name =>
    rw [Expression.levels] at hlevels
    rw [Expression.isPrintable] at hprintable
    obtain ⟨left, rfl⟩ : ∃ left, levels = left + 1 := ⟨levels - 1, by omega⟩
    exact member_reads (Expression.isRead scope hprintable (by omega)) hprintable
  | .memberCall scope name arguments =>
    rw [Expression.levels] at hlevels
    simp only [Expression.isPrintable, Bool.and_eq_true] at hprintable
    obtain ⟨left, rfl⟩ : ∃ left, levels = left + 1 := ⟨levels - 1, by omega⟩
    exact memberCall_reads (Expression.isRead scope hprintable.1 (by omega)) hprintable.1
      (Expression.areRead arguments hprintable.2 (by omega))
      (Expression.isPrintable_of_mem hprintable.2)
  | .call callee arguments =>
    rw [Expression.levels] at hlevels
    simp only [Expression.isPrintable, Bool.and_eq_true] at hprintable
    obtain ⟨left, rfl⟩ : ∃ left, levels = left + 1 := ⟨levels - 1, by omega⟩
    exact call_reads hprintable.1 (by omega) (Expression.areRead arguments hprintable.2 (by omega))
      (Expression.isPrintable_of_mem hprintable.2)
  | .function returnType body =>
    rw [Expression.levels] at hlevels
    rw [Expression.isPrintable] at hprintable
    obtain ⟨left, rfl⟩ : ∃ left, levels = left + 1 := ⟨levels - 1, by omega⟩
    exact function_reads (by omega) (Statement.areRead body hprintable (by omega))
      (Statement.isPrintable_of_mem hprintable)
  | .error _ => cases hprintable

/-- A function value is read from what it is printed as by the parser for function values. -/
theorem Expression.functionIsRead {levels : Nat} (value : Expression)
    (hprintable : value.isPrintable options = true) (hlevels : value.levels ≤ levels) :
    ∀ returnType body, value = .function returnType body →
      (Parser.functionValue (layerInside options levels)).Reads
        (Printing.expression worded value) value
        fun _ => True := by
  match value with
  | .function returnType body =>
    rw [Expression.levels, Nat.max_le] at hlevels
    rw [Expression.isPrintable] at hprintable
    obtain ⟨left, rfl⟩ : ∃ left, levels = left + 1 := ⟨levels - 1, by omega⟩
    exact fun _ _ _ => functionValue_reads hlevels.1 (Statement.areRead body hprintable (by omega))
      (Statement.isPrintable_of_mem hprintable)
  | .number _ | .string _ | .boolean _ | .name _ | .array _ | .structLiteral .. | .binary .. |
    .unary ..
  | .member .. | .memberCall .. | .call .. | .error _ => nofun

/-- Each of some expressions is read from what it is printed as. -/
theorem Expression.areRead {levels : Nat} (items : List Expression)
    (hprintable : Expression.arePrintable options items = true)
    (hlevels : Expression.maxLevels items ≤ levels) :
    ∀ item ∈ items, item.IsRead options worded levels := by
  match items with
  | [] => nofun
  | first :: rest =>
    rw [Expression.arePrintable, Bool.and_eq_true] at hprintable
    rw [Expression.maxLevels, Nat.max_le] at hlevels
    exact List.forall_mem_cons.mpr ⟨Expression.isRead first hprintable.1 hlevels.1,
      Expression.areRead rest hprintable.2 hlevels.2⟩

/-- The value of each of some fields is read from what it is printed as. -/
theorem Expression.fieldsAreRead {levels : Nat} (fields : List (String × Expression))
    (hprintable : Expression.fieldsArePrintable options fields = true)
    (hlevels : Expression.maxFieldLevels fields ≤ levels) :
    ∀ field ∈ fields, field.2.IsRead options worded levels := by
  match fields with
  | [] => nofun
  | (name, value) :: rest =>
    rw [Expression.fieldsArePrintable, Bool.and_eq_true] at hprintable
    rw [Expression.maxFieldLevels, Nat.max_le] at hlevels
    exact List.forall_mem_cons.mpr ⟨Expression.isRead value hprintable.1 hlevels.1,
      Expression.fieldsAreRead rest hprintable.2 hlevels.2⟩

/-- A statement is read from what it is printed as. -/
theorem Statement.isRead {levels : Nat} (value : Statement)
    (hprintable : value.isPrintable options = true) (hlevels : value.levels ≤ levels) :
    value.IsRead options worded levels := by
  match value with
  | .declaration binding name type value =>
    rw [Statement.levels, Nat.max_le] at hlevels
    rw [Statement.isPrintable] at hprintable
    exact declaration_reads hlevels.1 (Expression.isRead value hprintable hlevels.2) hprintable
      (Expression.functionIsRead value hprintable hlevels.2)
  | .conditional first others otherwise =>
    rw [Statement.levels, Nat.max_le, Nat.max_le] at hlevels
    simp only [Statement.isPrintable, Bool.and_eq_true] at hprintable
    exact conditional_reads (Branch.isRead first hprintable.1.1 hlevels.1)
      (Branch.areRead others hprintable.1.2 hlevels.2.1)
      (Statement.otherwiseIsRead otherwise hprintable.2 hlevels.2.2)
  | .whileLoop condition body =>
    rw [Statement.levels] at hlevels
    simp only [Statement.isPrintable, Bool.and_eq_true] at hprintable
    obtain ⟨left, rfl⟩ : ∃ left, levels = left + 1 := ⟨levels - 1, by omega⟩
    exact whileLoop_reads (Expression.isRead condition hprintable.1 (by omega)) hprintable.1
      (Statement.areRead body hprintable.2 (by omega)) (Statement.isPrintable_of_mem hprintable.2)
  | .forLoop binding name iterable body =>
    rw [Statement.levels] at hlevels
    simp only [Statement.isPrintable, Bool.and_eq_true] at hprintable
    obtain ⟨left, rfl⟩ : ∃ left, levels = left + 1 := ⟨levels - 1, by omega⟩
    exact forLoop_reads (Expression.isRead iterable hprintable.1 (by omega)) hprintable.1
      (Statement.areRead body hprintable.2 (by omega)) (Statement.isPrintable_of_mem hprintable.2)
  | .breakLoop => exact fun _ _ => rfl
  | .continueLoop => exact fun _ _ => rfl
  | .returnValue none => exact fun _ _ => rfl
  | .returnValue (some value) =>
    exact returnValue_reads (Expression.isRead value hprintable hlevels) hprintable
  | .expression value =>
    rw [Statement.levels] at hlevels
    rw [Statement.isPrintable] at hprintable
    obtain ⟨left, rfl⟩ : ∃ left, levels = left + 1 := ⟨levels - 1, by omega⟩
    exact expressionStatement_reads (Expression.isRead value hprintable (by omega)) hprintable
  | .struct name fields => exact struct_reads hlevels
  | .impl name methods => exact impl_reads (Function.areRead methods hprintable hlevels)
  | .function function =>
    exact functionStatement_reads (Function.isRead function hprintable hlevels)
  | .error _ => cases hprintable

/-- Each of some statements is read from what it is printed as. -/
theorem Statement.areRead {levels : Nat} (items : List Statement)
    (hprintable : Statement.arePrintable options items = true)
    (hlevels : Statement.maxLevels items ≤ levels) :
    ∀ item ∈ items, item.IsRead options worded levels := by
  match items with
  | [] => nofun
  | first :: rest =>
    rw [Statement.arePrintable, Bool.and_eq_true] at hprintable
    rw [Statement.maxLevels, Nat.max_le] at hlevels
    exact List.forall_mem_cons.mpr ⟨Statement.isRead first hprintable.1 hlevels.1,
      Statement.areRead rest hprintable.2 hlevels.2⟩

/-- The block for when no branch is taken is read from what it is printed as, if there is one. -/
theorem Statement.otherwiseIsRead {levels : Nat} (otherwise : Option (List Statement))
    (hprintable : Statement.otherwiseIsPrintable options otherwise = true)
    (hlevels : Statement.otherwiseLevels otherwise ≤ levels) :
    ∀ body ∈ otherwise, (Parser.block (layerInside options levels)).Reads
      (Printing.enclosed "\x7b" "\x7d" (Printing.statements worded body)) body fun _ => True := by
  match otherwise with
  | none => nofun
  | some body =>
    rw [Statement.otherwiseLevels] at hlevels
    rw [Statement.otherwiseIsPrintable] at hprintable
    obtain ⟨left, rfl⟩ : ∃ left, levels = left + 1 := ⟨levels - 1, by omega⟩
    rintro other hother
    obtain rfl : body = other := Option.some.inj hother
    exact block_reads (Statement.areRead body hprintable (by omega))
      (Statement.isPrintable_of_mem hprintable)

/-- A branch is read from what it is printed as. -/
theorem Branch.isRead {levels : Nat} (value : Branch)
    (hprintable : value.isPrintable options = true) (hlevels : value.levels ≤ levels) :
    value.IsRead options worded levels := by
  match value with
  | .mk condition body =>
    rw [Branch.levels] at hlevels
    simp only [Branch.isPrintable, Bool.and_eq_true] at hprintable
    obtain ⟨left, rfl⟩ : ∃ left, levels = left + 1 := ⟨levels - 1, by omega⟩
    exact branch_reads (Expression.isRead condition hprintable.1 (by omega)) hprintable.1
      (Statement.areRead body hprintable.2 (by omega)) (Statement.isPrintable_of_mem hprintable.2)

/-- Each of some branches is read from what it is printed as. -/
theorem Branch.areRead {levels : Nat} (items : List Branch)
    (hprintable : Branch.arePrintable options items = true)
    (hlevels : Branch.maxLevels items ≤ levels) :
    ∀ item ∈ items, item.IsRead options worded levels := by
  match items with
  | [] => nofun
  | first :: rest =>
    rw [Branch.arePrintable, Bool.and_eq_true] at hprintable
    rw [Branch.maxLevels, Nat.max_le] at hlevels
    exact List.forall_mem_cons.mpr ⟨Branch.isRead first hprintable.1 hlevels.1,
      Branch.areRead rest hprintable.2 hlevels.2⟩

/-- A function is read from what it is printed as. -/
theorem Function.isRead {levels : Nat} {stated : Bool} (value : Function)
    (hprintable : value.isPrintable options stated = true) (hlevels : value.levels ≤ levels) :
    value.IsRead options worded levels stated := by
  match value with
  | .mk name parameters returnType body =>
    rw [Function.levels, Nat.max_le, Nat.max_le] at hlevels
    simp only [Function.isPrintable, Bool.and_eq_true, Bool.or_eq_true, Bool.not_eq_true']
      at hprintable
    obtain ⟨left, rfl⟩ : ∃ left, levels = left + 1 := ⟨levels - 1, by omega⟩
    exact callable_reads hprintable.1 hlevels.1 hlevels.2.1
      (Statement.areRead body hprintable.2 (by omega)) (Statement.isPrintable_of_mem hprintable.2)

/-- Each of some methods is read from what it is printed as. -/
theorem Function.areRead {levels : Nat} (items : List Function)
    (hprintable : Function.arePrintable options items = true)
    (hlevels : Function.maxLevels items ≤ levels) :
    ∀ item ∈ items, item.IsRead options worded levels options.methodsStateReturn := by
  match items with
  | [] => nofun
  | first :: rest =>
    rw [Function.arePrintable, Bool.and_eq_true] at hprintable
    rw [Function.maxLevels, Nat.max_le] at hlevels
    exact List.forall_mem_cons.mpr ⟨Function.isRead first hprintable.1 hlevels.1,
      Function.areRead rest hprintable.2 hlevels.2⟩

end

/-- A program is read from what it is printed as, and nothing else is reported or left. -/
theorem program_reads {program : List Statement}
    (hprintable : Statement.arePrintable options program = true)
    (hlevels : Statement.maxLevels program ≤ maxNesting) :
    Parser.program options (Printing.statements worded program) = .done program [] [] := by
  have hread := @statements_read options worded maxNesting program [] []
    (Statement.areRead program hprintable hlevels) (Statement.isPrintable_of_mem hprintable)
    (List.nil_subset _) (.inl rfl) rfl
  rwa [List.append_nil] at hread

/-- Tokens that a program is printed as are parsed to that program without a diagnostic, if the
program can be printed and opens no more levels at once than the parser allows. -/
theorem parseTokens_printed (worded : String → Bool) {program : List Statement}
    {tokens : List Token} {options : Options} (source : Option String)
    (hprintable : Statement.arePrintable options program = true)
    (hlevels : Statement.maxLevels program ≤ maxNesting)
    (htokens : (tokens.takeWhile Input.isInside).map Token.toLexeme =
      Printing.statements worded program) :
    parseTokens tokens source options = .ok (program, []) := by
  have hlexemes : (Input.ofTokens tokens).lexemes = Printing.statements worded program := by
    rw [Input.lexemes_ofTokens, htokens]
  have hparse : (Input.ofTokens tokens).parse options = .ok ⟨program, []⟩ := by
    rw [Input.parse, hlexemes, program_reads hprintable hlevels]
  simp only [parseTokens, hparse]
  rfl

/-- A method that is named like the word for functions is parsed back from what it is printed as. -/
theorem parseTokens_printed_method :
    let program : List Statement := [.impl "P"
      [.mk "fn" [⟨"n", some (.mk "Vec" [.mk "i32" []])⟩] none
      [.conditional (.mk (.binary (.name ⟨"n", []⟩) .less (.unary .negate (.number (.integer 1))))
        [])
        [] (some [.returnValue (some (.structLiteral "P" [("x", .array [.boolean true])]))])]]]
    let tokens := (Printing.statements (fun _ => false) program).map fun lexeme =>
      Token.mk lexeme (.start "main")
    Statement.arePrintable {} program = true ∧ Statement.maxLevels program ≤ maxNesting ∧
      parseTokens tokens none {} = .ok (program, []) := by
  intro program tokens
  have hprintable : Statement.arePrintable {} program = true := by decide
  have hlevels : Statement.maxLevels program ≤ maxNesting := by decide
  have htokens : (tokens.takeWhile Input.isInside).map Token.toLexeme =
      Printing.statements (fun _ => false) program := rfl
  exact ⟨hprintable, hlevels, parseTokens_printed _ none hprintable hlevels htokens⟩

end BraceLang
