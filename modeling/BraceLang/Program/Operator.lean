/-!
# Operators

The operators of expressions, with the precedence of the binary ones: an operator of a greater
precedence binds tighter. Scope access by `::` binds tighter than all of them.
-/

namespace BraceLang

/-- The operators between two operands. -/
inductive BinaryOperator where
  | assign
  | or
  | and
  | equal
  | notEqual
  | less
  | lessEqual
  | greater
  | greaterEqual
  | add
  | subtract
  | multiply
  | divide
  deriving DecidableEq, Repr

namespace BinaryOperator

/-- The mark of an operator. -/
def spelling : BinaryOperator → String
  | .assign => "="
  | .or => "||"
  | .and => "&&"
  | .equal => "=="
  | .notEqual => "!="
  | .less => "<"
  | .lessEqual => "<="
  | .greater => ">"
  | .greaterEqual => ">="
  | .add => "+"
  | .subtract => "-"
  | .multiply => "*"
  | .divide => "/"

/-- How tightly an operator binds. -/
def precedence : BinaryOperator → Nat
  | .assign => 0
  | .or => 1
  | .and => 2
  | .equal | .notEqual => 3
  | .less | .lessEqual | .greater | .greaterEqual => 4
  | .add | .subtract => 5
  | .multiply | .divide => 6

/-- All operators. -/
def all : List BinaryOperator :=
  [.assign, .or, .and, .equal, .notEqual, .less, .lessEqual, .greater, .greaterEqual, .add,
   .subtract, .multiply, .divide]

/-- The operator of a mark. -/
def ofSpelling? (spelling : String) : Option BinaryOperator :=
  all.find? (·.spelling == spelling)

/-- An operator is found by its mark. -/
theorem ofSpelling?_spelling (operator : BinaryOperator) :
    ofSpelling? operator.spelling = some operator := by
  cases operator <;> decide

/-- The operator of a mark has that mark. -/
theorem spelling_of_ofSpelling? {text : String} {operator : BinaryOperator}
    (hfound : ofSpelling? text = some operator) : operator.spelling = text := by
  simpa using List.find?_some hfound

/-- There are seven precedences. -/
theorem precedence_lt (operator : BinaryOperator) : operator.precedence < 7 := by
  cases operator <;> decide

end BinaryOperator

/-- The operators in front of an operand. -/
inductive UnaryOperator where
  | negate
  | not
  deriving DecidableEq, Repr

namespace UnaryOperator

/-- The mark of an operator. -/
def spelling : UnaryOperator → String
  | .negate => "-"
  | .not => "!"

/-- The operator of a mark. -/
def ofSpelling? : String → Option UnaryOperator
  | "-" => some .negate
  | "!" => some .not
  | _ => none

/-- An operator is found by its mark. -/
theorem ofSpelling?_spelling (operator : UnaryOperator) :
    ofSpelling? operator.spelling = some operator := by
  cases operator <;> decide

/-- The operator of a mark has that mark. -/
theorem spelling_of_ofSpelling? {text : String} {operator : UnaryOperator}
    (hfound : ofSpelling? text = some operator) : operator.spelling = text := by
  unfold ofSpelling? at hfound
  split at hfound
  · obtain rfl := Option.some.inj hfound
    rfl
  · obtain rfl := Option.some.inj hfound
    rfl
  · cases hfound

end UnaryOperator

end BraceLang
