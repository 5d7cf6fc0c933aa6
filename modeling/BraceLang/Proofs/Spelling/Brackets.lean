import BraceLang.Parser.Layer
import BraceLang.Proofs.Parsing.Marks
import BraceLang.Proofs.Spelling.Forms

/-!
# Brackets in spellings

Opening marks count one up and closing marks one down. Whatever is spelled without a complaint is
even: it ends in as many open groups as it begins in. Parentheses around an expression and the
brackets of every list come in pairs, and nothing else in a spelling is such a mark.
-/

namespace BraceLang

open Language Spellings

/-- One for a mark that opens a group, and one less than nothing for a mark that closes one. -/
def Lexeme.weight (lexeme : Lexeme) : Int :=
  if lexeme.isMarkOf openers then 1 else if lexeme.isMarkOf closers then -1 else 0

/-- How many more groups are open behind a row than in front of it. -/
def balance : List Lexeme → Int
  | [] => 0
  | lexeme :: rest => lexeme.weight + balance rest

/-- An empty row is even. -/
@[simp] theorem balance_nil : balance [] = 0 := rfl

/-- The first lexeme of a row is counted in. -/
@[simp] theorem balance_cons (lexeme : Lexeme) (row : List Lexeme) :
    balance (lexeme :: row) = lexeme.weight + balance row := rfl

/-- Rows that stand behind each other are counted together. -/
@[simp] theorem balance_append (first second : List Lexeme) :
    balance (first ++ second) = balance first + balance second := by
  induction first with
  | nil => exact (Int.zero_add _).symm
  | cons lexeme rest ih => rw [List.cons_append, balance_cons, balance_cons, ih, Int.add_assoc]

/-- What is no mark neither opens nor closes a group. -/
theorem Lexeme.weight_of_not_isMark {lexeme : Lexeme} (hmark : lexeme.isMark = false) :
    lexeme.weight = 0 := by
  simp [weight, isMarkOf, hmark]

/-- A mark weighs as much as its text tells. -/
theorem Lexeme.weight_of_isMarkOf {lexeme : Lexeme} {text : String}
    (hmark : lexeme.isMarkOf [text] = true) :
    lexeme.weight = if text ∈ openers then 1 else if text ∈ closers then -1 else 0 := by
  simp only [isMarkOf, Bool.and_eq_true, List.contains_iff_mem, List.mem_singleton] at hmark
  obtain ⟨hmark, rfl⟩ := hmark
  simp only [weight, isMarkOf, hmark, Bool.true_and, List.contains_iff_mem]

/-- A mark that is no bracket neither opens nor closes a group. -/
theorem Lexeme.weight_eq_zero {lexeme : Lexeme} {marks : List String}
    (hmark : lexeme.isMarkOf marks = true) (hmarks : ∀ mark ∈ marks, mark ∉ openers ++ closers) :
    lexeme.weight = 0 := by
  have hopener := isMarkOf_disjoint hmark fun mark hmem hopener =>
    hmarks mark hmem (List.mem_append_left _ hopener)
  have hcloser := isMarkOf_disjoint hmark fun mark hmem hcloser =>
    hmarks mark hmem (List.mem_append_right _ hcloser)
  rw [weight, hopener, hcloser]
  rfl

namespace Spellings

/-- Every row of some spellings has the same balance. -/
def Weighs (weight : Int) (spellings : Spellings) : Prop := ∀ row ∈ spellings, balance row = weight

/-- Behind every row of some spellings as many groups are open as in front of it. -/
abbrev Even (spellings : Spellings) : Prop := spellings.Weighs 0

variable {first second spellings : Spellings} {weight more : Int}

/-- Nothing at all is even. -/
theorem one_even : Even 1 := by
  rintro row rfl
  rfl

/-- So is what has no spelling. -/
theorem zero_even : Even 0 := fun row hrow => absurd hrow (notMem_zero row)

/-- What stands behind each other is weighed together. -/
theorem Weighs.mul (hfirst : first.Weighs weight) (hsecond : second.Weighs more) :
    (first * second).Weighs (weight + more) := by
  intro row hrow
  obtain ⟨left, hleft, right, hright, rfl⟩ := mem_mul.mp hrow
  rw [balance_append, hfirst left hleft, hsecond right hright]

/-- What is spelled in one of two ways weighs the same if both do. -/
theorem Weighs.add (hfirst : first.Weighs weight) (hsecond : second.Weighs weight) :
    (first + second).Weighs weight := by
  rintro row (hrow | hrow)
  · exact hfirst row hrow
  · exact hsecond row hrow

/-- What is repeated weighs as often. -/
theorem Weighs.pow (hspellings : spellings.Weighs weight) (count : Nat) :
    (spellings ^ count).Weighs (count * weight) := by
  induction count with
  | zero =>
    rw [pow_zero, Int.ofNat_zero, Int.zero_mul]
    exact one_even
  | succ count ih =>
    rw [pow_succ, Int.natCast_succ, Int.add_mul, Int.one_mul]
    exact ih.mul hspellings

/-- A mark weighs as much as its text tells. -/
theorem mark_weighs (text : String) :
    (mark text).Weighs (if text ∈ openers then 1 else if text ∈ closers then -1 else 0) := by
  rintro row ⟨lexeme, hmark, rfl⟩
  rw [balance_cons, balance_nil, Int.add_zero, Lexeme.weight_of_isMarkOf hmark]

/-- What is no mark is even. -/
private theorem even_of_not_isMark {lexeme : Lexeme} (hmark : lexeme.isMark = false) :
    balance [lexeme] = 0 := by
  rw [balance_cons, balance_nil, Lexeme.weight_of_not_isMark hmark, Int.add_zero]

/-- A word is even. -/
theorem word_even (text : String) : (word text).Even := by
  rintro row ⟨lexeme, hword, rfl⟩
  have hnot := Lexeme.isWord_of_isWordOf hword
  refine even_of_not_isMark ?_
  simp only [Lexeme.isWord, Bool.or_eq_true, beq_iff_eq] at hnot
  rcases hnot with hkind | hkind <;> simp [Lexeme.isMark, hkind]

/-- So is an identifier. -/
theorem identifier_even (text : String) : (identifier text).Even := by
  rintro row rfl
  exact even_of_not_isMark rfl

/-- So is a quoted text. -/
theorem quoted_even (text : String) : (quoted text).Even := by
  rintro row rfl
  exact even_of_not_isMark rfl

/-- So is a numeral. -/
theorem numeral_even (value : Number) : (numeral value).Even := by
  rintro row ⟨text, -, rfl⟩
  exact even_of_not_isMark rfl

/-- What may be missing is even if what may be there is. -/
theorem Weighs.optional (hspellings : spellings.Even) : (optional spellings).Even :=
  one_even.add hspellings

/-- As many parentheses are closed behind something as are opened in front of it. -/
theorem Weighs.grouped (hspellings : spellings.Even) : (grouped spellings).Even := by
  rintro row ⟨pairs, hrow⟩
  have hweight := ((mark_weighs "(").pow pairs).mul hspellings |>.mul ((mark_weighs ")").pow pairs)
  rw [hweight row hrow, if_pos (by decide), if_neg (by decide), if_pos (by decide)]
  omega

/-- A pair of brackets around something. -/
theorem Weighs.between {opening closing : String} (hspellings : spellings.Even)
    (hopening : opening ∈ openers) (hclosing : closing ∈ closers) :
    (mark opening * spellings * mark closing).Even := by
  have hnot : closing ∉ openers := by
    intro hmem
    simp only [openers, closers, List.mem_cons, List.not_mem_nil, or_false] at hmem hclosing
    rcases hclosing with rfl | rfl | rfl <;> simp at hmem
  have hweight := ((mark_weighs opening).mul hspellings).mul (mark_weighs closing)
  rwa [if_pos hopening, if_neg hnot, if_pos hclosing] at hweight

/-- Braces come in a pair. -/
theorem Weighs.braced (hspellings : spellings.Even) : (braced spellings).Even :=
  hspellings.between (by decide) (by decide)

/-- So do brackets. -/
theorem Weighs.bracketed (hspellings : spellings.Even) :
    (mark "[" * spellings * mark "]").Even :=
  hspellings.between (by decide) (by decide)

/-- So do parentheses. -/
theorem Weighs.parenthesized (hspellings : spellings.Even) : (parenthesized spellings).Even :=
  hspellings.between (by decide) (by decide)

/-- A comma is even. -/
theorem comma_even : (mark ",").Even := mark_weighs ","

/-- A list is even if its first item and the items behind it are. -/
theorem Weighs.listed (hfirst : first.Even) (hsecond : second.Even) :
    (listed first second).Even :=
  (hfirst.mul hsecond).mul comma_even.optional

/-- A function value is even, since its own parentheses come in a pair. -/
theorem Weighs.functionValue (htype : first.Even) (hbody : second.Even) :
    (functionValue first second).Even :=
  ((one_even.parenthesized.mul (mark_weighs "->")).mul htype).mul hbody

end Spellings

section Types

mutual

/-- Types are even. -/
theorem TypeExpr.spellings_even : (type : TypeExpr) → type.spellings.Even
  | .mk name arguments => by
    rw [TypeExpr.spellings]
    exact (word_even name).mul (argumentSpellings_even arguments)

/-- The arguments of a type are even. -/
theorem TypeExpr.argumentSpellings_even :
    (arguments : List TypeExpr) → (TypeExpr.argumentSpellings arguments).Even
  | [] => one_even
  | first :: behind => by
    rw [TypeExpr.argumentSpellings]
    exact ((mark_weighs "<").mul (first.spellings_even.mul (behindSpellings_even behind))).mul
      (mark_weighs ">")

/-- So are those behind the first. -/
theorem TypeExpr.behindSpellings_even :
    (types : List TypeExpr) → (TypeExpr.behindSpellings types).Even
  | [] => one_even
  | type :: behind => by
    rw [TypeExpr.behindSpellings]
    exact (comma_even.mul type.spellings_even).mul (behindSpellings_even behind)

end

/-- So is an annotation. -/
theorem TypeExpr.annotationSpellings_even :
    (type : Option TypeExpr) → (TypeExpr.annotationSpellings type).Even
  | none => one_even
  | some type => (mark_weighs ":").mul type.spellings_even

/-- So is a return type. -/
theorem TypeExpr.returnSpellings_even :
    (type : Option TypeExpr) → (TypeExpr.returnSpellings type).Even
  | none => one_even
  | some type =>
    have harrow : (mark "->").Even := mark_weighs "->"
    (harrow.add (mark_weighs ":")).mul type.spellings_even

/-- So is a name with its arguments. -/
theorem Name.spellings_even (name : Name) : name.spellings.Even :=
  (identifier_even name.text).mul (TypeExpr.argumentSpellings_even name.typeArguments)

/-- So is a parameter. -/
theorem Parameter.spellings_even (parameter : Parameter) : parameter.spellings.Even :=
  (identifier_even parameter.name).mul (TypeExpr.annotationSpellings_even parameter.type)

/-- So are the parameters behind the first. -/
theorem Parameter.behindSpellings_even :
    (parameters : List Parameter) → (Parameter.behindSpellings parameters).Even
  | [] => one_even
  | parameter :: behind =>
    (comma_even.mul parameter.spellings_even).mul (behindSpellings_even behind)

/-- So is a list of parameters. -/
theorem Parameter.listSpellings_even :
    (parameters : List Parameter) → (Parameter.listSpellings parameters).Even
  | [] => one_even
  | first :: behind => first.spellings_even.listed (behindSpellings_even behind)

/-- So is a field of a struct. -/
theorem StructField.spellings_even (field : StructField) : field.spellings.Even :=
  ((identifier_even field.name).mul (mark_weighs ":")).mul field.type.spellings_even

/-- A comma or a semicolon is even. -/
private theorem separator_even : (mark "," + mark ";").Even := comma_even.add (mark_weighs ";")

/-- So are the fields behind the first. -/
theorem StructField.behindSpellings_even :
    (fields : List StructField) → (StructField.behindSpellings fields).Even
  | [] => one_even
  | field :: behind =>
    (separator_even.mul field.spellings_even).mul (behindSpellings_even behind)

/-- So is a list of fields. -/
theorem StructField.listSpellings_even :
    (fields : List StructField) → (StructField.listSpellings fields).Even
  | [] => one_even
  | first :: behind =>
    (first.spellings_even.mul (behindSpellings_even behind)).mul separator_even.optional

end Types

/-- A field of a struct literal is even in either form. -/
theorem Expression.fieldForm_even (name : String) (value : Expression) {spellings : Spellings}
    (hspellings : spellings.Even) : (fieldForm name value spellings).Even :=
  (((identifier_even name).mul (mark_weighs ":")).mul hspellings).add
    fun row hrow => identifier_even name row hrow.2

/-- No binary operator is a bracket. -/
private theorem binaryOperator_even (operator : BinaryOperator) :
    (mark operator.spelling).Even := by
  cases operator <;> exact mark_weighs _

/-- Nor is a unary one. -/
private theorem unaryOperator_even (operator : UnaryOperator) :
    (mark operator.spelling).Even := by
  cases operator <;> exact mark_weighs _

mutual

/-- Expressions are even. -/
theorem Expression.spellings_even : (value : Expression) → value.spellings.Even
  | .number value => (numeral_even value).grouped
  | .string text => (quoted_even text).grouped
  | .boolean _ => (word_even _).grouped
  | .name name => name.spellings_even.grouped
  | .array items => (Expression.listSpellings_even items).bracketed.grouped
  | .structLiteral name fields =>
    ((identifier_even name).mul (Expression.fieldSpellings_even fields).braced).grouped
  | .binary left operator right =>
    ((left.spellings_even.mul (binaryOperator_even operator)).mul right.spellings_even).grouped
  | .unary operator operand =>
    ((unaryOperator_even operator).mul operand.spellings_even).grouped
  | .member scope name =>
    ((scope.spellings_even.mul (mark_weighs "::")).mul (identifier_even name)).grouped
  | .memberCall scope name arguments =>
    ((scope.spellings_even.mul (mark_weighs "::")).mul ((identifier_even name).mul
      (Expression.listSpellings_even arguments).parenthesized)).grouped
  | .call callee arguments =>
    (callee.spellings_even.mul (Expression.listSpellings_even arguments).parenthesized).grouped
  | .function returnType body =>
    (returnType.spellings_even.functionValue (Statement.rowSpellings_even body).braced).grouped
  | .error _ => zero_even

/-- The items behind the first are even if every expression is. -/
theorem Expression.behindSpellings_even :
    (items : List Expression) → (Expression.behindSpellings items).Even
  | [] => one_even
  | item :: behind =>
    (comma_even.mul item.spellings_even).mul (Expression.behindSpellings_even behind)

/-- So is a list of items. -/
theorem Expression.listSpellings_even :
    (items : List Expression) → (Expression.listSpellings items).Even
  | [] => one_even
  | first :: behind => first.spellings_even.listed (Expression.behindSpellings_even behind)

/-- So are the fields of a struct value behind the first. -/
theorem Expression.behindFieldSpellings_even :
    (fields : List (String × Expression)) → (Expression.behindFieldSpellings fields).Even
  | [] => one_even
  | (name, value) :: behind =>
    (comma_even.mul (Expression.fieldForm_even name value value.spellings_even)).mul
      (Expression.behindFieldSpellings_even behind)

/-- So is a list of such fields. -/
theorem Expression.fieldSpellings_even :
    (fields : List (String × Expression)) → (Expression.fieldSpellings fields).Even
  | [] => one_even
  | (name, value) :: behind =>
    (Expression.fieldForm_even name value value.spellings_even).listed
      (Expression.behindFieldSpellings_even behind)

/-- Statements are even. -/
theorem Statement.spellings_even : (statement : Statement) → statement.spellings.Even
  | .declaration _ name type value =>
    (((((word_even _).mul (identifier_even name)).mul (TypeExpr.annotationSpellings_even type)).mul
      (mark_weighs "=")).mul value.spellings_even).mul (mark_weighs ";")
  | .conditional first others otherwise =>
    (((word_even _).mul first.spellings_even).mul (Branch.behindSpellings_even others)).mul
      (Statement.otherwiseSpellings_even otherwise)
  | .whileLoop condition body =>
    ((word_even _).mul condition.spellings_even).mul (Statement.rowSpellings_even body).braced
  | .forLoop _ name iterable body =>
    (((((word_even _).mul (word_even _)).mul (identifier_even name)).mul (word_even _)).mul
      iterable.spellings_even).mul (Statement.rowSpellings_even body).braced
  | .breakLoop | .continueLoop => (word_even _).mul (mark_weighs ";")
  | .returnValue none => (word_even _).mul (mark_weighs ";")
  | .returnValue (some value) => ((word_even _).mul value.spellings_even).mul (mark_weighs ";")
  | .expression value => value.spellings_even.mul (mark_weighs ";")
  | .struct name fields =>
    ((word_even _).mul (identifier_even name)).mul (StructField.listSpellings_even fields).braced
  | .impl name methods =>
    ((word_even _).mul (identifier_even name)).mul (Function.methodSpellings_even methods).braced
  | .function function => (word_even _).mul function.spellings_even
  | .error _ => zero_even

/-- A row of statements is even. -/
theorem Statement.rowSpellings_even :
    (statements : List Statement) → (Statement.rowSpellings statements).Even
  | [] => one_even
  | statement :: behind => statement.spellings_even.mul (Statement.rowSpellings_even behind)

/-- So is what an `else` opens. -/
theorem Statement.otherwiseSpellings_even :
    (otherwise : Option (List Statement)) → (Statement.otherwiseSpellings otherwise).Even
  | none => one_even
  | some body => (word_even _).mul (Statement.rowSpellings_even body).braced

/-- So is a branch. -/
theorem Branch.spellings_even : (branch : Branch) → branch.spellings.Even
  | .mk condition body =>
    condition.spellings_even.mul (Statement.rowSpellings_even body).braced

/-- So are the branches behind the first. -/
theorem Branch.behindSpellings_even :
    (branches : List Branch) → (Branch.behindSpellings branches).Even
  | [] => one_even
  | branch :: behind =>
    (((word_even _).mul (word_even _)).mul branch.spellings_even).mul
      (Branch.behindSpellings_even behind)

/-- So is what can be called. -/
theorem Function.spellings_even : (function : Function) → function.spellings.Even
  | .mk name parameters returnType body =>
    (((identifier_even name).mul (Parameter.listSpellings_even parameters).parenthesized).mul
      (TypeExpr.returnSpellings_even returnType)).mul (Statement.rowSpellings_even body).braced

/-- So are the methods of an `impl`. -/
theorem Function.methodSpellings_even :
    (methods : List Function) → (Function.methodSpellings methods).Even
  | [] => one_even
  | method :: behind =>
    ((word_even _).optional.mul method.spellings_even).mul
      (Function.methodSpellings_even behind)

end

end BraceLang
