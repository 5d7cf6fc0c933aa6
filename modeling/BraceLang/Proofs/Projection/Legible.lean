import BraceLang.Tree.Node

/-!
# Legible trees

A value can be told from how it is projected if a few things are limited. The only atoms are texts
and nothing, but for the value of a number or of a truth value, which are known by the tag in front.
The fields of a record are named by texts without a colon, and a field that is called `type` does
not hold a text, so no record looks like a node.
-/

namespace BraceLang.Tree

/-- A field that does not look like the tag of a node, and that is named by a text without a
colon. -/
def IsLegibleField (field : Atom × Value) : Prop :=
  ∃ name : String, field.1 = .text name ∧ ':' ∉ name.toList ∧
    (name = "type" → ∀ text, field.2 ≠ .atom (.text text))

/-- A value that can be told from how it is projected. -/
inductive Value.Legible : Value → Prop
  | null : Value.Legible (.atom .null)
  | text (value : String) : Value.Legible (.atom (.text value))
  | number (value : Nat) : Value.Legible (.node .number (.atom (.integer value)))
  | boolean (value : Bool) : Value.Legible (.node .boolean (.atom (.boolean value)))
  | node {tag : Tag} {value : Value} : tag ≠ .number → tag ≠ .boolean → Value.Legible value →
    Value.Legible (.node tag value)
  | list {items : List Value} : (∀ item ∈ items, Value.Legible item) → Value.Legible (.list items)
  | record {fields : List (Atom × Value)} : (∀ field ∈ fields, IsLegibleField field) →
    (∀ field ∈ fields, Value.Legible field.2) → Value.Legible (.record fields)

namespace Value

/-- A record with named fields. -/
theorem Legible.named {fields : List (String × Value)}
    (hnames : ∀ field ∈ fields, ':' ∉ field.1.toList)
    (htypes : ∀ field ∈ fields, field.1 = "type" → ∀ text, field.2 ≠ .atom (.text text))
    (hvalues : ∀ field ∈ fields, field.2.Legible) : (Value.named fields).Legible := by
  refine .record (List.forall_mem_map.mpr fun field hfield => ?_)
    (List.forall_mem_map.mpr fun field hfield => hvalues field hfield)
  exact ⟨field.1, rfl, hnames field hfield, htypes field hfield⟩

end Value

end BraceLang.Tree
