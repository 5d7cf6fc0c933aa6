import BraceLang.Proofs.Projection.Legible

/-!
# Trees as plain data

As plain data a node is a record of its type and its value. No record of a legible tree looks like
one, so it can be read off the data which records are nodes, with which tags, and the data of two
trees are only equal if the trees are.
-/

namespace BraceLang

open BraceLang.Tree (Value Node Tag IsLegibleField)

namespace Datum

mutual

/-- Whether two data are equal: lists item by item, records field by field in their order, and atoms
as keys are, so that a truth value counts as a number. No tree is projected onto other data. -/
def same : Datum → Datum → Bool
  | .atom value, .atom other => value.sameKey other
  | .list items, .list others => sameItems items others
  | .record fields, .record others => sameFields fields others
  | _, _ => false

/-- Whether lists have equal items. -/
def sameItems : List Datum → List Datum → Bool
  | [], [] => true
  | item :: items, other :: others => same item other && sameItems items others
  | _, _ => false

/-- Whether records have equal fields. -/
def sameFields : List (Atom × Datum) → List (Atom × Datum) → Bool
  | [], [] => true
  | (key, value) :: fields, (other, another) :: others =>
    key.sameKey other && same value another && sameFields fields others
  | _, _ => false

end

/-- The tag of a record that looks like a node: it has a type, which is the name of the tag, and a
value, and no other field. -/
def nodeTag? (fields : Fields Datum) : Option Tag :=
  let keys := fields.map Prod.fst
  if keys = [.text "type", .text "value"] ∨ keys = [.text "value", .text "type"] then
    match fields.get? (.text "type") with
    | some (.atom (.text name)) => Tag.ofName? name
    | _ => none
  else none

mutual

/-- The tags of the nodes in some data, each before those in its value. -/
def tags : Datum → List Tag
  | .list items => tagsOfItems items
  | .record fields => (nodeTag? fields).toList ++ tagsOfFields fields
  | _ => []

/-- The tags in the items of a list. -/
def tagsOfItems : List Datum → List Tag
  | [] => []
  | item :: rest => tags item ++ tagsOfItems rest

/-- The tags in the fields of a record. -/
def tagsOfFields : List (Atom × Datum) → List Tag
  | [] => []
  | (_, value) :: rest => tags value ++ tagsOfFields rest

end

end Datum

namespace Atom

/-- Only the same text is the same key as a text. -/
theorem sameKey_text_left {text : String} {other : Atom} :
    (Atom.text text).sameKey other = true ↔ other = .text text := by
  cases other with
  | text value =>
    rw [Atom.text.injEq, eq_comm (a := value)]
    simp [sameKey, asInteger?]
  | null | boolean | integer | real | illFormed | bytes | date | moment =>
    simp [sameKey, asInteger?]

/-- A text is the same key as the same text only. -/
theorem sameKey_text_right {text : String} {other : Atom} :
    other.sameKey (.text text) = true ↔ other = .text text := by
  cases other with
  | real value => cases value <;> simp [sameKey, asInteger?]
  | null | boolean | integer | text | illFormed | bytes | date | moment =>
    simp [sameKey, asInteger?]

end Atom

namespace Datum

variable {text : String} {datum : Datum}

/-- Only the same text is equal to a text on the left. -/
theorem same_text_left : (Datum.text text).same datum = true ↔ datum = .text text := by
  cases datum with
  | atom value => rw [Datum.text, same, Atom.sameKey_text_left, atom.injEq]
  | list | record | set | pair | loop => exact ⟨nofun, nofun⟩

/-- Only the same text is equal to a text on the right. -/
theorem same_text_right : datum.same (Datum.text text) = true ↔ datum = .text text := by
  cases datum with
  | atom value => rw [Datum.text, same, Atom.sameKey_text_right, atom.injEq]
  | list | record | set | pair | loop => exact ⟨nofun, nofun⟩

end Datum

namespace Tree.Value

/-- Only a text is projected onto a text. -/
theorem toDatum_eq_text {value : Value} {text : String} :
    value.toDatum = .text text ↔ value = .atom (.text text) := by
  cases value <;> simp [toDatum, Datum.text]

/-- Fields are projected one by one, under the names they have. -/
theorem fieldsToData_eq_map (fields : List (Atom × Value)) :
    fieldsToData fields = fields.map fun field => (field.1, field.2.toDatum) := by
  induction fields with
  | nil => rfl
  | cons field rest ih => rw [fieldsToData, ih, List.map_cons]

/-- No field of a record of legible fields holds a type as the record of a node does. -/
theorem not_typed_of_legible {fields : List (Atom × Value)}
    (hfields : ∀ field ∈ fields, IsLegibleField field) (name : String) :
    (.text "type", .text name) ∉ fieldsToData fields := by
  rw [fieldsToData_eq_map]
  intro hmem
  obtain ⟨field, hfield, hsame⟩ := List.mem_map.mp hmem
  obtain ⟨hkey, hvalue⟩ := Prod.mk.inj hsame
  obtain ⟨known, hknown, -, htype⟩ := hfields field hfield
  rw [hknown, Atom.text.injEq] at hkey
  exact htype hkey name (toDatum_eq_text.mp hvalue)

/-- Nodes are equal as data if they are the same, where the values of nodes of one tag are if they
are equal as data. -/
theorem same_nodes {tag other : Tag} {value another : Value}
    (hvalues : tag = other → (value.toDatum.same another.toDatum = true ↔ value = another)) :
    (node tag value).toDatum.same (node other another).toDatum = true ↔
      node tag value = node other another := by
  have hkey (text : String) : (Atom.text text).sameKey (.text text) = true :=
    Atom.sameKey_text_left.mpr rfl
  have hname : (Datum.text tag.name).same (.text other.name) = true ↔ tag = other := by
    rw [Datum.same_text_left, Datum.text, Datum.text, Datum.atom.injEq, Atom.text.injEq,
      Tag.name_inj, eq_comm]
  simp only [toDatum, Datum.same, Datum.sameFields, hkey, Bool.and_eq_true, hname, true_and,
    and_true, node.injEq]
  exact and_congr_right hvalues

/-- A node and a record of legible fields are not equal as data. -/
theorem not_same_node_record {tag : Tag} {value : Value} {fields : List (Atom × Value)}
    (hfields : ∀ field ∈ fields, IsLegibleField field) :
    ¬ (node tag value).toDatum.same (record fields).toDatum = true ∧
      ¬ (record fields).toDatum.same (node tag value).toDatum = true := by
  have htyped := not_typed_of_legible hfields tag.name
  rw [toDatum, toDatum, Datum.same, Datum.same]
  cases hdata : fieldsToData fields with
  | nil => exact ⟨nofun, nofun⟩
  | cons first rest =>
    -- The first field would have to be the type of the node.
    have hfirst : first ≠ (.text "type", .text tag.name) := fun hfirst => by
      rw [hdata, hfirst] at htyped
      exact htyped List.mem_cons_self
    refine ⟨fun hsame => hfirst ?_, fun hsame => hfirst ?_⟩
    · simp only [Datum.sameFields, Bool.and_eq_true] at hsame
      exact Prod.ext (Atom.sameKey_text_left.mp hsame.1.1) (Datum.same_text_left.mp hsame.1.2)
    · simp only [Datum.sameFields, Bool.and_eq_true] at hsame
      exact Prod.ext (Atom.sameKey_text_right.mp hsame.1.1) (Datum.same_text_right.mp hsame.1.2)

/-- Lists are equal as data if their items are the same, where these are if they are equal as
data. -/
theorem same_items {items others : List Value}
    (hitems : ∀ item ∈ items, ∀ other ∈ others,
      (item.toDatum.same other.toDatum = true ↔ item = other)) :
    (list items).toDatum.same (list others).toDatum = true ↔ list items = list others := by
  rw [toDatum, toDatum, Datum.same, list.injEq]
  induction items generalizing others with
  | nil => cases others <;> simp [itemsToData, Datum.sameItems]
  | cons item items ih =>
    cases others with
    | nil => simp [itemsToData, Datum.sameItems]
    | cons other others =>
      have hfirst := hitems item List.mem_cons_self other List.mem_cons_self
      have hrest := ih fun item hitem other hother =>
        hitems item (List.mem_cons_of_mem _ hitem) other (List.mem_cons_of_mem _ hother)
      rw [itemsToData, itemsToData, Datum.sameItems, Bool.and_eq_true, hfirst, hrest,
        List.cons.injEq]

/-- Records of legible fields are equal as data if their fields are the same, where their values are
if they are equal as data. -/
theorem same_fields {fields others : List (Atom × Value)}
    (hfields : ∀ field ∈ fields, IsLegibleField field)
    (hvalues : ∀ field ∈ fields, ∀ other ∈ others,
      (field.2.toDatum.same other.2.toDatum = true ↔ field.2 = other.2)) :
    (record fields).toDatum.same (record others).toDatum = true ↔
      record fields = record others := by
  rw [toDatum, toDatum, Datum.same, record.injEq]
  induction fields generalizing others with
  | nil => cases others <;> simp [fieldsToData, Datum.sameFields]
  | cons field fields ih =>
    cases others with
    | nil => simp [fieldsToData, Datum.sameFields]
    | cons other others =>
      obtain ⟨⟨name, hname, -⟩, hfields⟩ := List.forall_mem_cons.mp hfields
      have hfirst := hvalues field List.mem_cons_self other List.mem_cons_self
      have hrest := ih hfields fun field hfield other hother =>
        hvalues field (List.mem_cons_of_mem _ hfield) other (List.mem_cons_of_mem _ hother)
      rw [fieldsToData, fieldsToData, Datum.sameFields, Bool.and_eq_true, Bool.and_eq_true, hname,
        Atom.sameKey_text_left, hfirst, hrest, List.cons.injEq, Prod.ext_iff, hname, eq_comm]

/-- Legible values are equal as data if they are the same. -/
theorem Legible.same_iff {value other : Value} (hvalue : value.Legible) (hother : other.Legible) :
    value.toDatum.same other.toDatum = true ↔ value = other := by
  -- A truth value is the same key as a number, so it is the tags of their nodes that differ.
  induction hvalue generalizing other with
  | null =>
    cases hother with
    | null => exact ⟨fun _ => rfl, fun _ => rfl⟩
    | text | number | boolean | node | list | record => exact ⟨nofun, nofun⟩
  | text text =>
    have htext := @Datum.same_text_left text other.toDatum
    rw [toDatum_eq_text] at htext
    exact htext.trans eq_comm
  | number number =>
    cases hother with
    | number another =>
      exact same_nodes fun _ => by simp [toDatum, Datum.same, Atom.sameKey, Atom.asInteger?]
    | boolean => exact same_nodes nofun
    | node hnumber => exact same_nodes fun htag => absurd htag.symm hnumber
    | record hnames => exact iff_of_false (not_same_node_record hnames).1 nofun
    | null | text | list => exact ⟨nofun, nofun⟩
  | boolean truth =>
    cases hother with
    | boolean another =>
      refine same_nodes fun _ => ?_
      cases truth <;> cases another <;> simp [toDatum, Datum.same, Atom.sameKey, Atom.asInteger?]
    | number => exact same_nodes nofun
    | node _ hboolean => exact same_nodes fun htag => absurd htag.symm hboolean
    | record hnames => exact iff_of_false (not_same_node_record hnames).1 nofun
    | null | text | list => exact ⟨nofun, nofun⟩
  | node hnumber hboolean _ ih =>
    cases hother with
    | number => exact same_nodes fun htag => absurd htag hnumber
    | boolean => exact same_nodes fun htag => absurd htag hboolean
    | node _ _ hinner => exact same_nodes fun _ => ih hinner
    | record hnames => exact iff_of_false (not_same_node_record hnames).1 nofun
    | null | text | list => exact ⟨nofun, nofun⟩
  | list _ ih =>
    cases hother with
    | list hothers =>
      exact same_items fun item hitem other hother => ih item hitem (hothers other hother)
    | null | text | number | boolean | node | record => exact ⟨nofun, nofun⟩
  | record hnames _ ih =>
    cases hother with
    | record _ hothers =>
      exact same_fields hnames fun field hfield other hother => ih field hfield (hothers other hother)
    | number | boolean | node => exact iff_of_false (not_same_node_record hnames).2 nofun
    | null | text | list => exact ⟨nofun, nofun⟩

/-- The record of a node looks like one, with its tag. -/
theorem nodeTag?_node (tag : Tag) (value : Datum) :
    Datum.nodeTag? [(.text "type", .text tag.name), (.text "value", value)] = some tag :=
  Tag.ofName?_name tag

/-- A record of legible fields does not look like a node. -/
theorem nodeTag?_of_legible {fields : List (Atom × Value)}
    (hfields : ∀ field ∈ fields, IsLegibleField field) :
    Datum.nodeTag? (fieldsToData fields) = none := by
  have htyped := not_typed_of_legible hfields
  simp only [Datum.nodeTag?]
  split
  · split
    · next name hfound =>
      obtain ⟨field, hfind, hvalue⟩ := Option.map_eq_some_iff.mp hfound
      have hsame : field.1.sameKey (.text "type") = true := by simpa using List.find?_some hfind
      have hkey := Atom.sameKey_text_right.mp hsame
      have hfield : field = (.text "type", .text name) := Prod.ext hkey hvalue
      exact absurd (hfield ▸ List.mem_of_find?_eq_some hfind) (htyped name)
    · rfl
  · rfl

/-- The tags of a list are those of its items. -/
theorem tagsOfItems {items : List Value}
    (hitems : ∀ item ∈ items, item.toDatum.tags = item.nodes.map Node.tag) :
    Datum.tagsOfItems (itemsToData items) = (nodesOfItems items).map Node.tag := by
  induction items with
  | nil => rfl
  | cons item items ih =>
    obtain ⟨hitem, hrest⟩ := List.forall_mem_cons.mp hitems
    rw [itemsToData, Datum.tagsOfItems, nodesOfItems, List.map_append, hitem, ih hrest]

/-- The tags of the values of a record are those of its fields. -/
theorem tagsOfFields {fields : List (Atom × Value)}
    (hfields : ∀ field ∈ fields, field.2.toDatum.tags = field.2.nodes.map Node.tag) :
    Datum.tagsOfFields (fieldsToData fields) = (nodesOfFields fields).map Node.tag := by
  induction fields with
  | nil => rfl
  | cons field fields ih =>
    obtain ⟨hfield, hrest⟩ := List.forall_mem_cons.mp hfields
    rw [fieldsToData, Datum.tagsOfFields, nodesOfFields, List.map_append, hfield, ih hrest]

/-- The tags of the nodes of a legible value are read off its data, in order. -/
theorem Legible.tags_toDatum {value : Value} (hvalue : value.Legible) :
    value.toDatum.tags = value.nodes.map Node.tag := by
  induction hvalue with
  | null | text => rfl
  | number | boolean =>
    rw [toDatum, Datum.tags, nodeTag?_node]
    rfl
  | node _ _ _ ih =>
    rw [toDatum, Datum.tags, nodeTag?_node]
    simp [Datum.tagsOfFields, ih, nodes, Datum.text, Datum.tags]
  | list _ ih => exact tagsOfItems ih
  | record hnames _ ih =>
    rw [toDatum, Datum.tags, nodeTag?_of_legible hnames]
    exact tagsOfFields ih

end Tree.Value

end BraceLang
