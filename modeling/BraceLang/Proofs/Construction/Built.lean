import BraceLang.Proofs.Construction.Yields
import BraceLang.Proofs.Printing.Print

/-!
# How programs are built

A program is built from its parts, and so is the row of reports that are made while it is built: the
reports of a construct are those of its parts, one behind the other. There are two exceptions. A
complaint in place of an expression is one report. A complaint in place of a statement is the report
of its failure, behind whatever was reported for the parts that the statement would have had; these
parts are lost.

Each rule names what is left of the levels of nesting. What a program says about its parts that its
type does not say is a premise: names with type arguments begin with a capital, the fields of a
literal are named once, and a return type is stated where the options ask for it.
-/

namespace BraceLang

/-- A name that opens no more levels than there are, and that has type arguments only if it may. -/
structure Name.Built (levels : Nat) (name : Name) : Prop where
  levels_le : TypeExpr.argumentLevels name.typeArguments ≤ levels
  generic : name.typeArguments ≠ [] → Parser.isGenericName name.text = true

section

variable (options : Options)

mutual

/-- An expression as it is built where so many levels may be opened, with its reports. -/
inductive Expression.Built : Nat → Expression → List Report → Prop
  | number {levels : Nat} (value : Number) : Expression.Built levels (.number value) []
  | string {levels : Nat} (text : String) : Expression.Built levels (.string text) []
  | boolean {levels : Nat} (value : Bool) : Expression.Built levels (.boolean value) []
  | name {levels : Nat} {name : Name} : name.Built levels → Expression.Built levels (.name name) []
  | group {levels : Nat} {value : Expression} {reports : List Report} :
    Expression.Built levels value reports → Expression.Built (levels + 1) value reports
  | array {levels : Nat} {items : List Expression} {reports : List Report} :
    Expression.AllBuilt levels items reports → Expression.Built (levels + 1) (.array items) reports
  | structLiteral {levels : Nat} {name : String} {fields : List (String × Expression)}
    {reports : List Report} : (fields.map Prod.fst).Nodup →
    Expression.FieldsBuilt levels fields reports →
    Expression.Built (levels + 1) (.structLiteral name fields) reports
  | binary {levels : Nat} {left right : Expression} {operator : BinaryOperator}
    {earlier later : List Report} : Expression.Built levels left earlier →
    Expression.Built levels right later →
    Expression.Built levels (.binary left operator right) (earlier ++ later)
  | unary {levels : Nat} {operator : UnaryOperator} {operand : Expression} {reports : List Report} :
    Expression.Built levels operand reports →
    Expression.Built (levels + 1) (.unary operator operand) reports
  | member {levels : Nat} {scope : Expression} {name : String} {reports : List Report} :
    Expression.Built levels scope reports → Expression.Built levels (.member scope name) reports
  | memberCall {levels : Nat} {scope : Expression} {name : String} {arguments : List Expression}
    {earlier later : List Report} : Expression.Built (levels + 1) scope earlier →
    Expression.AllBuilt levels arguments later →
    Expression.Built (levels + 1) (.memberCall scope name arguments) (earlier ++ later)
  | call {levels : Nat} {callee : Name} {arguments : List Expression} {reports : List Report} :
    callee.Built (levels + 1) → Expression.AllBuilt levels arguments reports →
    Expression.Built (levels + 1) (.call callee arguments) reports
  | function {levels : Nat} {returnType : TypeExpr} {body : List Statement}
    {reports : List Report} : returnType.levels ≤ levels + 1 →
    Statement.AllBuilt levels body reports →
    Expression.Built (levels + 1) (.function returnType body) reports
  | error {levels : Nat} (report : Report) :
    Expression.Built levels (.error report.complaint) [report]

/-- Expressions one behind the other. -/
inductive Expression.AllBuilt : Nat → List Expression → List Report → Prop
  | nil {levels : Nat} : Expression.AllBuilt levels [] []
  | cons {levels : Nat} {first : Expression} {rest : List Expression}
    {earlier later : List Report} : Expression.Built levels first earlier →
    Expression.AllBuilt levels rest later →
    Expression.AllBuilt levels (first :: rest) (earlier ++ later)

/-- The values of fields one behind the other. -/
inductive Expression.FieldsBuilt : Nat → List (String × Expression) → List Report → Prop
  | nil {levels : Nat} : Expression.FieldsBuilt levels [] []
  | cons {levels : Nat} {name : String} {value : Expression} {rest : List (String × Expression)}
    {earlier later : List Report} : Expression.Built levels value earlier →
    Expression.FieldsBuilt levels rest later →
    Expression.FieldsBuilt levels ((name, value) :: rest) (earlier ++ later)

/-- A statement as it is built where so many levels may be opened, with its reports. -/
inductive Statement.Built : Nat → Statement → List Report → Prop
  | declaration {levels : Nat} {binding : Binding} {name : String} {type : Option TypeExpr}
    {value : Expression} {reports : List Report} : TypeExpr.statedLevels type ≤ levels →
    Expression.Built levels value reports →
    Statement.Built levels (.declaration binding name type value) reports
  | conditional {levels : Nat} {first : Branch} {others : List Branch}
    {otherwise : Option (List Statement)} {earlier later last : List Report} :
    Branch.Built levels first earlier → Branch.AllBuilt levels others later →
    Statement.OtherwiseBuilt levels otherwise last →
    Statement.Built levels (.conditional first others otherwise) (earlier ++ (later ++ last))
  | whileLoop {levels : Nat} {condition : Expression} {body : List Statement}
    {earlier later : List Report} : Expression.Built (levels + 1) condition earlier →
    Statement.AllBuilt levels body later →
    Statement.Built (levels + 1) (.whileLoop condition body) (earlier ++ later)
  | forLoop {levels : Nat} {binding : Binding} {name : String} {iterable : Expression}
    {body : List Statement} {earlier later : List Report} :
    Expression.Built (levels + 1) iterable earlier → Statement.AllBuilt levels body later →
    Statement.Built (levels + 1) (.forLoop binding name iterable body) (earlier ++ later)
  | breakLoop {levels : Nat} : Statement.Built levels .breakLoop []
  | continueLoop {levels : Nat} : Statement.Built levels .continueLoop []
  | returnNothing {levels : Nat} : Statement.Built levels (.returnValue none) []
  | returnValue {levels : Nat} {value : Expression} {reports : List Report} :
    Expression.Built levels value reports →
    Statement.Built levels (.returnValue (some value)) reports
  | expression {levels : Nat} {value : Expression} {reports : List Report} :
    Expression.Built levels value reports → Statement.Built levels (.expression value) reports
  | struct {levels : Nat} {name : String} {fields : List StructField} :
    (∀ field ∈ fields, field.type.levels ≤ levels) →
    Statement.Built levels (.struct name fields) []
  | impl {levels : Nat} {name : String} {methods : List Function} {reports : List Report} :
    Function.AllBuilt levels methods reports →
    Statement.Built levels (.impl name methods) reports
  | function {levels : Nat} {function : Function} {reports : List Report} :
    Function.Built levels options.functionsStateReturn function reports →
    Statement.Built levels (.function function) reports
  | error {levels : Nat} (earlier : List Report) (report : Report) :
    Statement.Built levels (.error report.complaint) (earlier ++ [report])

/-- Statements one behind the other. -/
inductive Statement.AllBuilt : Nat → List Statement → List Report → Prop
  | nil {levels : Nat} : Statement.AllBuilt levels [] []
  | cons {levels : Nat} {first : Statement} {rest : List Statement}
    {earlier later : List Report} : Statement.Built levels first earlier →
    Statement.AllBuilt levels rest later →
    Statement.AllBuilt levels (first :: rest) (earlier ++ later)

/-- The block for when no branch is taken, if there is one. -/
inductive Statement.OtherwiseBuilt : Nat → Option (List Statement) → List Report → Prop
  | none {levels : Nat} : Statement.OtherwiseBuilt levels none []
  | some {levels : Nat} {body : List Statement} {reports : List Report} :
    Statement.AllBuilt levels body reports →
    Statement.OtherwiseBuilt (levels + 1) (some body) reports

/-- A condition and its block. -/
inductive Branch.Built : Nat → Branch → List Report → Prop
  | mk {levels : Nat} {condition : Expression} {body : List Statement}
    {earlier later : List Report} : Expression.Built (levels + 1) condition earlier →
    Statement.AllBuilt levels body later →
    Branch.Built (levels + 1) (.mk condition body) (earlier ++ later)

/-- Branches one behind the other. -/
inductive Branch.AllBuilt : Nat → List Branch → List Report → Prop
  | nil {levels : Nat} : Branch.AllBuilt levels [] []
  | cons {levels : Nat} {first : Branch} {rest : List Branch} {earlier later : List Report} :
    Branch.Built levels first earlier → Branch.AllBuilt levels rest later →
    Branch.AllBuilt levels (first :: rest) (earlier ++ later)

/-- A function that may have to state its return type. -/
inductive Function.Built : Nat → Bool → Function → List Report → Prop
  | mk {levels : Nat} {stated : Bool} {name : String} {parameters : List Parameter}
    {returnType : Option TypeExpr} {body : List Statement} {reports : List Report} :
    (∀ parameter ∈ parameters, TypeExpr.statedLevels parameter.type ≤ levels + 1) →
    TypeExpr.statedLevels returnType ≤ levels + 1 → (stated = true → returnType ≠ none) →
    Statement.AllBuilt levels body reports →
    Function.Built (levels + 1) stated (.mk name parameters returnType body) reports

/-- Methods one behind the other. -/
inductive Function.AllBuilt : Nat → List Function → List Report → Prop
  | nil {levels : Nat} : Function.AllBuilt levels [] []
  | cons {levels : Nat} {first : Function} {rest : List Function} {earlier later : List Report} :
    Function.Built levels options.methodsStateReturn first earlier →
    Function.AllBuilt levels rest later →
    Function.AllBuilt levels (first :: rest) (earlier ++ later)

end

end

end BraceLang
