import BraceLang.Parser.Repeat

/-!
# Gaps in programs

A gap in a value is a place in one of the rows of statements that belong to it: between two of the
statements, before the first or behind the last. It is told by what the value becomes with a
statement put in there, so that everything else stays as it is.
-/

namespace BraceLang

/-- Gaps in values: a value and what it becomes with a statement put in. -/
abbrev Gaps (α : Type) := α → (Statement → α) → Prop

section Containers

variable {α β : Type}

/-- Gaps of values that have none. -/
def NoGaps : Gaps α := fun _ _ => False

/-- A gap in one of the items of a list. -/
inductive InList (gaps : Gaps α) : List α → (Statement → List α) → Prop
  | mk {before after : List α} {value : α} {fill : Statement → α} : gaps value fill →
    InList gaps (before ++ value :: after) fun item => before ++ fill item :: after

/-- A gap in the first part of a pair. -/
inductive InFirst (gaps : Gaps α) : α × β → (Statement → α × β) → Prop
  | mk {value : α} {other : β} {fill : Statement → α} : gaps value fill →
    InFirst gaps (value, other) fun item => (fill item, other)

/-- A gap in the second part of a pair. -/
inductive InSecond (gaps : Gaps β) : α × β → (Statement → α × β) → Prop
  | mk {other : α} {value : β} {fill : Statement → β} : gaps value fill →
    InSecond gaps (other, value) fun item => (other, fill item)

/-- A gap in what a round of a repetition goes on with, or in what it finishes with. -/
inductive InTurn (again finish : Gaps α) : Turn α → (Statement → Turn α) → Prop
  | again {state : α} {fill : Statement → α} : again state fill →
    InTurn again finish (.again state) fun item => .again (fill item)
  | finish {state : α} {fill : Statement → α} : finish state fill →
    InTurn again finish (.finish state) fun item => .finish (fill item)

namespace InList

variable {gaps : Gaps α} {items : List α} {fill : Statement → List α}

/-- A gap in the first item. -/
theorem head {value : α} {filled : Statement → α} (hvalue : gaps value filled) :
    InList gaps (value :: items) fun item => filled item :: items :=
  @mk α gaps [] items value filled hvalue

/-- A gap in one of the other items. -/
theorem cons (value : α) (hitems : InList gaps items fill) :
    InList gaps (value :: items) fun item => value :: fill item := by
  obtain @⟨before, after, other, filled, hother⟩ := hitems
  exact @mk α gaps (value :: before) after other filled hother

/-- A gap in a list that is turned round. -/
theorem reverse (hitems : InList gaps items fill) :
    InList gaps items.reverse fun item => (fill item).reverse := by
  obtain ⟨hvalue⟩ := hitems
  simpa using InList.mk hvalue

end InList

end Containers

mutual

/-- Gaps in the blocks of an expression. -/
inductive Expression.Gap : Expression → (Statement → Expression) → Prop
  | array {items : List Expression} {fill : Statement → List Expression} :
    InList Expression.Gap items fill →
    Expression.Gap (.array items) fun item => .array (fill item)
  | structLiteral {name : String} {fields : List (String × Expression)}
    {fill : Statement → List (String × Expression)} : InList (InSecond Expression.Gap) fields fill →
    Expression.Gap (.structLiteral name fields) fun item => .structLiteral name (fill item)
  | left {left right : Expression} {operator : BinaryOperator} {fill : Statement → Expression} :
    Expression.Gap left fill →
    Expression.Gap (.binary left operator right) fun item => .binary (fill item) operator right
  | right {left right : Expression} {operator : BinaryOperator} {fill : Statement → Expression} :
    Expression.Gap right fill →
    Expression.Gap (.binary left operator right) fun item => .binary left operator (fill item)
  | unary {operator : UnaryOperator} {operand : Expression} {fill : Statement → Expression} :
    Expression.Gap operand fill →
    Expression.Gap (.unary operator operand) fun item => .unary operator (fill item)
  | member {scope : Expression} {name : String} {fill : Statement → Expression} :
    Expression.Gap scope fill →
    Expression.Gap (.member scope name) fun item => .member (fill item) name
  | memberScope {scope : Expression} {name : String} {arguments : List Expression}
    {fill : Statement → Expression} : Expression.Gap scope fill →
    Expression.Gap (.memberCall scope name arguments) fun item =>
      .memberCall (fill item) name arguments
  | memberArguments {scope : Expression} {name : String} {arguments : List Expression}
    {fill : Statement → List Expression} : InList Expression.Gap arguments fill →
    Expression.Gap (.memberCall scope name arguments) fun item =>
      .memberCall scope name (fill item)
  | call {callee : Name} {arguments : List Expression} {fill : Statement → List Expression} :
    InList Expression.Gap arguments fill →
    Expression.Gap (.call callee arguments) fun item => .call callee (fill item)
  | function {returnType : TypeExpr} {body : List Statement} {fill : Statement → List Statement} :
    Statement.RowGap body fill →
    Expression.Gap (.function returnType body) fun item => .function returnType (fill item)

/-- Gaps in the blocks of a statement. -/
inductive Statement.Gap : Statement → (Statement → Statement) → Prop
  | declaration {binding : Binding} {name : String} {type : Option TypeExpr} {value : Expression}
    {fill : Statement → Expression} : Expression.Gap value fill →
    Statement.Gap (.declaration binding name type value) fun item =>
      .declaration binding name type (fill item)
  | first {first : Branch} {others : List Branch} {otherwise : Option (List Statement)}
    {fill : Statement → Branch} : Branch.Gap first fill →
    Statement.Gap (.conditional first others otherwise) fun item =>
      .conditional (fill item) others otherwise
  | others {first : Branch} {others : List Branch} {otherwise : Option (List Statement)}
    {fill : Statement → List Branch} : InList Branch.Gap others fill →
    Statement.Gap (.conditional first others otherwise) fun item =>
      .conditional first (fill item) otherwise
  | otherwise {first : Branch} {others : List Branch} {body : List Statement}
    {fill : Statement → List Statement} : Statement.RowGap body fill →
    Statement.Gap (.conditional first others (some body)) fun item =>
      .conditional first others (some (fill item))
  | whileCondition {condition : Expression} {body : List Statement}
    {fill : Statement → Expression} : Expression.Gap condition fill →
    Statement.Gap (.whileLoop condition body) fun item => .whileLoop (fill item) body
  | whileBody {condition : Expression} {body : List Statement}
    {fill : Statement → List Statement} : Statement.RowGap body fill →
    Statement.Gap (.whileLoop condition body) fun item => .whileLoop condition (fill item)
  | forIterable {binding : Binding} {name : String} {iterable : Expression}
    {body : List Statement} {fill : Statement → Expression} : Expression.Gap iterable fill →
    Statement.Gap (.forLoop binding name iterable body) fun item =>
      .forLoop binding name (fill item) body
  | forBody {binding : Binding} {name : String} {iterable : Expression} {body : List Statement}
    {fill : Statement → List Statement} : Statement.RowGap body fill →
    Statement.Gap (.forLoop binding name iterable body) fun item =>
      .forLoop binding name iterable (fill item)
  | returnValue {value : Expression} {fill : Statement → Expression} : Expression.Gap value fill →
    Statement.Gap (.returnValue (some value)) fun item => .returnValue (some (fill item))
  | expression {value : Expression} {fill : Statement → Expression} : Expression.Gap value fill →
    Statement.Gap (.expression value) fun item => .expression (fill item)
  | impl {name : String} {methods : List Function} {fill : Statement → List Function} :
    InList Function.Gap methods fill →
    Statement.Gap (.impl name methods) fun item => .impl name (fill item)
  | function {function : Function} {fill : Statement → Function} : Function.Gap function fill →
    Statement.Gap (.function function) fun item => .function (fill item)

/-- Gaps in a row of statements: between its statements, and in the blocks of one of them. -/
inductive Statement.RowGap : List Statement → (Statement → List Statement) → Prop
  | here {before after : List Statement} :
    Statement.RowGap (before ++ after) fun item => before ++ item :: after
  | inside {row : List Statement} {fill : Statement → List Statement} :
    InList Statement.Gap row fill → Statement.RowGap row fill

/-- Gaps in the condition or the block of a branch. -/
inductive Branch.Gap : Branch → (Statement → Branch) → Prop
  | condition {condition : Expression} {body : List Statement} {fill : Statement → Expression} :
    Expression.Gap condition fill →
    Branch.Gap (.mk condition body) fun item => .mk (fill item) body
  | body {condition : Expression} {body : List Statement} {fill : Statement → List Statement} :
    Statement.RowGap body fill →
    Branch.Gap (.mk condition body) fun item => .mk condition (fill item)

/-- Gaps in the body of a function or method. -/
inductive Function.Gap : Function → (Statement → Function) → Prop
  | body {name : String} {parameters : List Parameter} {returnType : Option TypeExpr}
    {body : List Statement} {fill : Statement → List Statement} : Statement.RowGap body fill →
    Function.Gap (.mk name parameters returnType body) fun item =>
      .mk name parameters returnType (fill item)

end

/-- Gaps in the branches behind the first one and in the block for when none is taken. -/
inductive Branch.OthersGap : List Branch × Option (List Statement) →
    (Statement → List Branch × Option (List Statement)) → Prop
  | branches {others : List Branch × Option (List Statement)}
    {fill : Statement → List Branch × Option (List Statement)} :
    InFirst (InList Branch.Gap) others fill → Branch.OthersGap others fill
  | otherwise {branches : List Branch} {body : List Statement}
    {fill : Statement → List Statement} : Statement.RowGap body fill →
    Branch.OthersGap (branches, some body) fun item => (branches, some (fill item))

end BraceLang
