import BraceLang.Proofs.Printing.Print

/-!
# How programs are composed

What a program may consist of where only certain lexemes are given and so many levels of nesting may
be opened. Every number stands for a number lexeme and every field of a struct literal is named by
an identifier. Each construct in brackets, each block and each operand of a unary operator is
composed on one level less than what it stands in.

Operands of binary operators have a rank, which is the number of precedences that may occur in them:
a row of operands is of the next higher rank than its operands. So ranks rise to the left and fall
to the right, and they only start anew one level further in.
-/

namespace BraceLang

/-- The rank of an expression in which operators of every precedence may occur. -/
def Expression.topRank : Nat := 7

section

variable (given : Lexeme → Prop)

mutual

/-- An expression of some rank where so many levels may be opened. -/
inductive Expression.Composed : Nat → Nat → Expression → Prop
  | number {levels : Nat} {text : String} {value : Number} : given ⟨.number, text⟩ →
    Numeral.read text = .ok value → Expression.Composed levels 0 (.number value)
  | string {levels : Nat} (text : String) : Expression.Composed levels 0 (.string text)
  | boolean {levels : Nat} (value : Bool) : Expression.Composed levels 0 (.boolean value)
  | name {levels : Nat} {name : Name} : TypeExpr.argumentLevels name.typeArguments ≤ levels →
    Expression.Composed levels 0 (.name name)
  | group {levels : Nat} {value : Expression} :
    Expression.Composed levels Expression.topRank value → Expression.Composed (levels + 1) 0 value
  | array {levels : Nat} {items : List Expression} :
    (∀ item ∈ items, Expression.Composed levels Expression.topRank item) →
    Expression.Composed (levels + 1) 0 (.array items)
  | structLiteral {levels : Nat} {name : String} {fields : List (String × Expression)} :
    (∀ field ∈ fields, given ⟨.identifier, field.1⟩) →
    (∀ field ∈ fields, Expression.Composed levels Expression.topRank field.2) →
    Expression.Composed (levels + 1) 0 (.structLiteral name fields)
  | binary {levels rank : Nat} {left right : Expression} {operator : BinaryOperator} :
    Expression.Composed levels (rank + 1) left → Expression.Composed levels rank right →
    Expression.Composed levels (rank + 1) (.binary left operator right)
  /-- A row of one operand. -/
  | single {levels rank : Nat} {operand : Expression} : Expression.Composed levels rank operand →
    Expression.Composed levels (rank + 1) operand
  | unary {levels : Nat} {operator : UnaryOperator} {operand : Expression} :
    Expression.Composed levels 0 operand →
    Expression.Composed (levels + 1) 0 (.unary operator operand)
  | member {levels : Nat} {scope : Expression} {name : String} :
    Expression.Composed levels 0 scope → Expression.Composed levels 0 (.member scope name)
  | memberCall {levels : Nat} {scope : Expression} {name : String} {arguments : List Expression} :
    Expression.Composed (levels + 1) 0 scope →
    (∀ argument ∈ arguments, Expression.Composed levels Expression.topRank argument) →
    Expression.Composed (levels + 1) 0 (.memberCall scope name arguments)
  | call {levels : Nat} {callee : Name} {arguments : List Expression} :
    TypeExpr.argumentLevels callee.typeArguments ≤ levels + 1 →
    (∀ argument ∈ arguments, Expression.Composed levels Expression.topRank argument) →
    Expression.Composed (levels + 1) 0 (.call callee arguments)
  | function {levels : Nat} {returnType : TypeExpr} {body : List Statement} :
    returnType.levels ≤ levels → Statement.BlockComposed levels body →
    Expression.Composed levels 0 (.function returnType body)
  | error {levels : Nat} (complaint : Complaint) : Expression.Composed levels 0 (.error complaint)

/-- A statement where so many levels may be opened. -/
inductive Statement.Composed : Nat → Statement → Prop
  | declaration {levels : Nat} {binding : Binding} {name : String} {type : Option TypeExpr}
    {value : Expression} : TypeExpr.statedLevels type ≤ levels →
    Expression.Composed levels Expression.topRank value →
    Statement.Composed levels (.declaration binding name type value)
  | conditional {levels : Nat} {first : Branch} {others : List Branch}
    {otherwise : Option (List Statement)} : Branch.Composed levels first →
    (∀ branch ∈ others, Branch.Composed levels branch) →
    (∀ body ∈ otherwise, Statement.BlockComposed levels body) →
    Statement.Composed levels (.conditional first others otherwise)
  | whileLoop {levels : Nat} {condition : Expression} {body : List Statement} :
    Expression.Composed levels Expression.topRank condition →
    Statement.BlockComposed levels body → Statement.Composed levels (.whileLoop condition body)
  | forLoop {levels : Nat} {binding : Binding} {name : String} {iterable : Expression}
    {body : List Statement} : Expression.Composed levels Expression.topRank iterable →
    Statement.BlockComposed levels body →
    Statement.Composed levels (.forLoop binding name iterable body)
  | breakLoop {levels : Nat} : Statement.Composed levels .breakLoop
  | continueLoop {levels : Nat} : Statement.Composed levels .continueLoop
  | returnNothing {levels : Nat} : Statement.Composed levels (.returnValue none)
  | returnValue {levels : Nat} {value : Expression} :
    Expression.Composed levels Expression.topRank value →
    Statement.Composed levels (.returnValue (some value))
  | expression {levels : Nat} {value : Expression} :
    Expression.Composed levels Expression.topRank value →
    Statement.Composed levels (.expression value)
  | struct {levels : Nat} {name : String} {fields : List StructField} :
    (∀ field ∈ fields, field.type.levels ≤ levels) → Statement.Composed levels (.struct name fields)
  | impl {levels : Nat} {name : String} {methods : List Function} :
    (∀ method ∈ methods, Function.Composed levels method) →
    Statement.Composed levels (.impl name methods)
  | function {levels : Nat} {function : Function} : Function.Composed levels function →
    Statement.Composed levels (.function function)
  | error {levels : Nat} (complaint : Complaint) : Statement.Composed levels (.error complaint)

/-- A block, the statements of which are one level further in. -/
inductive Statement.BlockComposed : Nat → List Statement → Prop
  | mk {levels : Nat} {body : List Statement} :
    (∀ statement ∈ body, Statement.Composed levels statement) →
    Statement.BlockComposed (levels + 1) body

/-- A condition and its block. -/
inductive Branch.Composed : Nat → Branch → Prop
  | mk {levels : Nat} {condition : Expression} {body : List Statement} :
    Expression.Composed levels Expression.topRank condition →
    Statement.BlockComposed levels body → Branch.Composed levels (.mk condition body)

/-- A function or method. -/
inductive Function.Composed : Nat → Function → Prop
  | mk {levels : Nat} {name : String} {parameters : List Parameter}
    {returnType : Option TypeExpr} {body : List Statement} :
    (∀ parameter ∈ parameters, TypeExpr.statedLevels parameter.type ≤ levels) →
    TypeExpr.statedLevels returnType ≤ levels → Statement.BlockComposed levels body →
    Function.Composed levels (.mk name parameters returnType body)

end

end

/-- What is composed with some rank is composed with every greater one. -/
theorem Expression.Composed.of_rank_le {given : Lexeme → Prop} {levels rank more : Nat}
    {value : Expression} (hvalue : Expression.Composed given levels rank value)
    (hmore : rank ≤ more) : Expression.Composed given levels more value := by
  induction hmore with
  | refl => exact hvalue
  | step _ ih => exact .single ih

end BraceLang
