import BraceLang.Program.Tree

/-!
# Rows in the tree view

The parts of a construct that stand one behind the other are viewed one by one, so whatever holds of
the view of each part holds of every value in the view of the row.
-/

namespace BraceLang

open BraceLang.Tree (Value)

/-- The values of a row of expressions are those of its items in turn. -/
theorem Expression.toValues_eq_map (items : List Expression) :
    Expression.toValues items = items.map fun item => item.toNode.toValue := by
  induction items with
  | nil => rfl
  | cons item rest ih => rw [Expression.toValues, ih, List.map_cons]

/-- The fields of a struct value keep their names. -/
theorem Expression.fieldsToValues_eq_map (fields : List (String × Expression)) :
    Expression.fieldsToValues fields =
      fields.map fun field => (Atom.text field.1, field.2.toNode.toValue) := by
  induction fields with
  | nil => rfl
  | cons field rest ih => rw [Expression.fieldsToValues, ih, List.map_cons]

/-- So are those of a block. -/
theorem Statement.toValues_eq_map (statements : List Statement) :
    Statement.toValues statements = statements.map fun statement => statement.toNode.toValue := by
  induction statements with
  | nil => rfl
  | cons statement rest ih => rw [Statement.toValues, ih, List.map_cons]

/-- The methods of an `impl` are recorded as functions of their own kind. -/
theorem Function.toValues_eq_map (methods : List Function) :
    Function.toValues methods =
      methods.map fun function => (function.toNode .method).toValue := by
  induction methods with
  | nil => rfl
  | cons function rest ih => rw [Function.toValues, ih, List.map_cons]

variable {holds : Value → Prop}

/-- What holds of every value of a row of expressions holds of each expression. -/
theorem Expression.forall_toValues {items : List Expression} :
    (∀ value ∈ Expression.toValues items, holds value) ↔
      ∀ item ∈ items, holds item.toNode.toValue := by
  rw [Expression.toValues_eq_map, List.forall_mem_map]

/-- Likewise for a block. -/
theorem Statement.forall_toValues {statements : List Statement} :
    (∀ value ∈ Statement.toValues statements, holds value) ↔
      ∀ statement ∈ statements, holds statement.toNode.toValue := by
  rw [Statement.toValues_eq_map, List.forall_mem_map]

/-- Likewise for the methods of an `impl`. -/
theorem Function.forall_toValues {methods : List Function} :
    (∀ value ∈ Function.toValues methods, holds value) ↔
      ∀ method ∈ methods, holds (method.toNode .method).toValue := by
  rw [Function.toValues_eq_map, List.forall_mem_map]

end BraceLang
