import BraceLang.Proofs.Projection.Legible
import BraceLang.Proofs.Projection.Quoting
import BraceLang.Tree.Render

/-!
# Rendered trees are read in one way

The first character of a rendered value tells what kind of value it is. A tag ends at the first
parenthesis, the name of a field at the first colon, and a line of a list or record at a comma or at
the end of the list. So two legible values that are rendered at one depth and begin in the same text
are the same value, whatever stands behind them.
-/

namespace BraceLang.Tree

/-- What stands in front of the first of some marks, and what stands behind it. -/
theorem append_mark_cancel {mark : Char} {front other rest tail : List Char}
    (hfront : mark ∉ front) (hother : mark ∉ other)
    (hsame : front ++ mark :: rest = other ++ mark :: tail) : front = other ∧ rest = tail := by
  induction front generalizing other with
  | nil =>
    cases other with
    | nil => exact ⟨rfl, (List.cons.inj hsame).2⟩
    | cons d ds => exact absurd (List.cons.inj hsame).1 (List.ne_of_not_mem_cons hother)
  | cons c cs ih =>
    cases other with
    | nil => exact absurd (List.cons.inj hsame).1.symm (List.ne_of_not_mem_cons hfront)
    | cons d ds =>
      obtain ⟨rfl, hmore⟩ := List.cons.inj hsame
      obtain ⟨rfl, htail⟩ := ih (List.not_mem_of_not_mem_cons hfront)
        (List.not_mem_of_not_mem_cons hother) hmore
      exact ⟨rfl, htail⟩

section Lines

variable {α : Type} {line : α → List Char}

/-- Lines with commas between them are read one by one, if each line is. -/
theorem joinLines_cancel {items others : List α} {rest tail : List Char}
    (hline : ∀ item ∈ items, ∀ other ∈ others, ∀ rest tail,
      line item ++ rest = line other ++ tail → item = other ∧ rest = tail)
    (hitems : items ≠ []) (hothers : others ≠ [])
    (hsame : joinLines (items.map line) ++ '\n' :: rest =
      joinLines (others.map line) ++ '\n' :: tail) : items = others ∧ rest = tail := by
  have hcons (item next : α) (items : List α) : joinLines ((item :: next :: items).map line) =
      line item ++ ',' :: '\n' :: joinLines ((next :: items).map line) := rfl
  induction items generalizing others with
  | nil => exact absurd rfl hitems
  | cons item items ih =>
    obtain ⟨other, others, rfl⟩ := List.exists_cons_of_ne_nil hothers
    have hfirst := hline item List.mem_cons_self other List.mem_cons_self
    cases items with
    | nil =>
      cases others with
      | nil =>
        obtain ⟨rfl, hrest⟩ := hfirst _ _ hsame
        exact ⟨rfl, (List.cons.inj hrest).2⟩
      | cons next others =>
        rw [hcons, List.append_assoc] at hsame
        exact absurd (List.cons.inj (hfirst _ _ hsame).2).1 (by decide)
    | cons next items =>
      cases others with
      | nil =>
        rw [hcons, List.append_assoc] at hsame
        exact absurd (List.cons.inj (hfirst _ _ hsame).2).1 (by decide)
      | cons another others =>
        rw [hcons, hcons, List.append_assoc, List.append_assoc] at hsame
        obtain ⟨rfl, hmore⟩ := hfirst _ _ hsame
        have hlines := (List.cons.inj (List.cons.inj hmore).2).2
        obtain ⟨hnext, htail⟩ := ih (fun item hitem other hother =>
          hline item (List.mem_cons_of_mem _ hitem) other (List.mem_cons_of_mem _ hother))
          (List.cons_ne_nil _ _) (List.cons_ne_nil _ _) hlines
        exact ⟨by rw [hnext], htail⟩

/-- Lines between brackets are read one by one, if each line is: an empty row is known by the
bracket behind the first. -/
theorem bracketed_cancel (rendered : List α → List Char) {opening closing : Char} {depth : Int}
    (hnil : rendered [] = [opening, closing])
    (hcons : ∀ item items, rendered (item :: items) = opening :: '\n' ::
      (joinLines ((item :: items).map line) ++ '\n' :: (indentation depth ++ [closing])))
    (hclosing : closing ≠ '\n') {items others : List α} {rest tail : List Char}
    (hline : ∀ item ∈ items, ∀ other ∈ others, ∀ rest tail,
      line item ++ rest = line other ++ tail → item = other ∧ rest = tail)
    (hsame : rendered items ++ rest = rendered others ++ tail) : items = others ∧ rest = tail := by
  cases items with
  | nil =>
    cases others with
    | nil => exact ⟨rfl, List.append_cancel_left hsame⟩
    | cons other others =>
      rw [hnil, hcons] at hsame
      exact absurd (List.cons.inj (List.cons.inj hsame).2).1 hclosing
  | cons item items =>
    cases others with
    | nil =>
      rw [hnil, hcons] at hsame
      exact absurd (List.cons.inj (List.cons.inj hsame).2).1.symm hclosing
    | cons other others =>
      simp only [hcons, List.cons_append, List.append_assoc, List.cons.injEq, true_and] at hsame
      obtain ⟨hitems, hbehind⟩ :=
        joinLines_cancel hline (List.cons_ne_nil _ _) (List.cons_ne_nil _ _) hsame
      have htail := List.append_cancel_left hbehind
      exact ⟨hitems, (List.cons.inj htail).2⟩

end Lines

/-- What the first character of a rendered value tells. -/
inductive Mold where
  | nothing
  | text
  | list
  | record
  | node
  deriving DecidableEq

/-- The mold that a character opens. -/
def Mold.ofHead (c : Char) : Mold :=
  if c = 'N' then .nothing
  else if c = '\'' ∨ c = '"' then .text
  else if c = '[' then .list
  else if c = '\x7b' then .record
  else .node

/-- The mold of a value. -/
def Value.mold : Value → Mold
  | .atom .null => .nothing
  | .atom _ => .text
  | .list _ => .list
  | .record _ => .record
  | .node _ _ => .node

/-- Every tag begins with a letter that opens no other mold. -/
theorem Tag.ofHead_name (tag : Tag) :
    ∃ first more, tag.name.toList = first :: more ∧ Mold.ofHead first = .node := by
  cases tag <;> exact ⟨_, _, rfl, by decide⟩

namespace Value

/-- A rendered value begins with a character that opens its mold. -/
theorem Legible.head {value : Value} (hvalue : value.Legible) (depth : Int) :
    ∃ first more, value.renderChars depth = first :: more ∧ Mold.ofHead first = value.mold := by
  have hnode (tag : Tag) (value : Value) : ∃ first more,
      (Value.node tag value).renderChars depth = first :: more ∧ Mold.ofHead first = .node := by
    obtain ⟨first, more, hname, hfirst⟩ := tag.ofHead_name
    rw [renderChars, hname]
    exact ⟨first, _, rfl, hfirst⟩
  cases hvalue with
  | null => exact ⟨'N', _, rfl, rfl⟩
  | text text =>
    have hquoted : (Value.atom (.text text)).renderChars depth = Text.quotedChars text.toList :=
      String.toList_ofList
    rw [hquoted]
    refine ⟨_, _, rfl, ?_⟩
    rcases Text.quoteFor_eq text.toList with hquote | hquote
    · rw [hquote]; rfl
    · rw [hquote]; rfl
  | number | boolean | node => exact hnode _ _
  | @list items =>
    cases items with
    | nil => exact ⟨'[', _, rfl, rfl⟩
    | cons item rest => exact ⟨'[', _, rfl, rfl⟩
  | @record fields =>
    cases fields with
    | nil => exact ⟨'\x7b', _, rfl, rfl⟩
    | cons field rest => exact ⟨'\x7b', _, rfl, rfl⟩

/-- Items are written one by one, each behind the indentation of its depth. -/
theorem renderItems_eq_map (items : List Value) (depth : Int) :
    renderItems items depth = items.map fun item => indentation depth ++ item.renderChars depth := by
  induction items with
  | nil => rfl
  | cons item rest ih => rw [renderItems, ih, List.map_cons]

/-- So are fields, each behind its name. -/
theorem renderFields_eq_map (fields : List (Atom × Value)) (depth : Int) :
    renderFields fields depth = fields.map fun field =>
      indentation depth ++ field.1.shown.toList ++ ':' :: ' ' :: field.2.renderChars depth := by
  induction fields with
  | nil => rfl
  | cons field rest ih => rw [renderFields, ih, List.map_cons]

/-- Values that begin in the same text open the same mold. -/
theorem Legible.mold_eq {value other : Value} {depth : Int} {rest tail : List Char}
    (hvalue : value.Legible) (hother : other.Legible)
    (hsame : value.renderChars depth ++ rest = other.renderChars depth ++ tail) :
    value.mold = other.mold := by
  obtain ⟨first, more, hfirst, hmold⟩ := hvalue.head depth
  obtain ⟨second, others, hsecond, hmold'⟩ := hother.head depth
  rw [hfirst, hsecond] at hsame
  rw [← hmold, ← hmold', (List.cons.inj hsame).1]

/-- A rendered node tells its tag and where its value begins. -/
theorem renderNode_cancel {tag other : Tag} {value another : Value} {depth : Int}
    {rest tail : List Char}
    (hsame : (node tag value).renderChars depth ++ rest =
      (node other another).renderChars depth ++ tail) :
    tag = other ∧
      value.renderChars depth ++ ')' :: rest = another.renderChars depth ++ ')' :: tail := by
  have hopen (tag : Tag) : '(' ∉ tag.name.toList := by cases tag <;> decide
  simp only [renderChars, List.append_assoc, List.cons_append, List.nil_append] at hsame
  obtain ⟨hname, hvalue⟩ := append_mark_cancel (hopen tag) (hopen other) hsame
  exact ⟨Tag.name_inj.mp (String.toList_inj.mp hname), hvalue⟩

/-- The rendered value of a number tells it up to the parenthesis behind it. -/
theorem renderInteger_cancel {number other : Nat} {depth : Int} {rest tail : List Char}
    (hsame : (atom (.integer number)).renderChars depth ++ ')' :: rest =
      (atom (.integer other)).renderChars depth ++ ')' :: tail) :
    number = other ∧ rest = tail := by
  have hdigits (number : Nat) : ')' ∉ Nat.toDigits 10 number := fun hmem =>
    absurd (Nat.isDigit_of_mem_toDigits (by decide) (by decide) hmem) (by decide)
  have hrender (number : Nat) :
      (atom (.integer number)).renderChars depth = Nat.toDigits 10 number := Nat.toList_repr
  rw [hrender, hrender] at hsame
  obtain ⟨hsame, htail⟩ := append_mark_cancel (hdigits number) (hdigits other) hsame
  have hvalue := congrArg (Nat.ofDigitChars 10 · 0) hsame
  rw [Nat.ofDigitChars_ten_toDigits, Nat.ofDigitChars_ten_toDigits] at hvalue
  exact ⟨hvalue, htail⟩

/-- The rendered value of a truth value tells it. -/
theorem renderBoolean_cancel {truth other : Bool} {depth : Int} {rest tail : List Char}
    (hsame : (atom (.boolean truth)).renderChars depth ++ rest =
      (atom (.boolean other)).renderChars depth ++ tail) :
    truth = other ∧ rest = tail := by
  cases truth <;> cases other
  · exact ⟨rfl, List.append_cancel_left hsame⟩
  · exact absurd (List.cons.inj hsame).1 (by decide)
  · exact absurd (List.cons.inj hsame).1 (by decide)
  · exact ⟨rfl, List.append_cancel_left hsame⟩

/-- A rendered list tells its items, if they are told by how they are rendered. -/
theorem renderList_cancel {items others : List Value} {depth : Int} {rest tail : List Char}
    (hitem : ∀ item ∈ items, ∀ other ∈ others, ∀ rest tail,
      item.renderChars (depth + 1) ++ rest = other.renderChars (depth + 1) ++ tail →
        item = other ∧ rest = tail)
    (hsame : (list items).renderChars depth ++ rest = (list others).renderChars depth ++ tail) :
    items = others ∧ rest = tail := by
  have hcons (item : Value) (items : List Value) :
      (list (item :: items)).renderChars depth = '[' :: '\n' ::
        (joinLines ((item :: items).map fun item =>
          indentation (depth + 1) ++ item.renderChars (depth + 1)) ++
            '\n' :: (indentation depth ++ [']'])) := by
    rw [← renderItems_eq_map, renderChars]
  refine bracketed_cancel (fun items => (list items).renderChars depth) rfl hcons (by decide)
    (fun item hmem other hother rest tail hline => ?_) hsame
  rw [List.append_assoc, List.append_assoc] at hline
  exact hitem item hmem other hother rest tail (List.append_cancel_left hline)

/-- The line of a field tells its name by the first colon, and its value if that is told by how it
is rendered. -/
theorem renderField_cancel {field other : Atom × Value} {depth : Int} {rest tail : List Char}
    (hfield : IsLegibleField field) (hother : IsLegibleField other)
    (hvalue : ∀ rest tail, field.2.renderChars depth ++ rest = other.2.renderChars depth ++ tail →
      field.2 = other.2 ∧ rest = tail)
    (hsame : field.1.shown.toList ++ ':' :: ' ' :: (field.2.renderChars depth ++ rest) =
      other.1.shown.toList ++ ':' :: ' ' :: (other.2.renderChars depth ++ tail)) :
    field = other ∧ rest = tail := by
  obtain ⟨name, hname, hcolon, -⟩ := hfield
  obtain ⟨another, hanother, hcolon', -⟩ := hother
  rw [hname, hanother] at hsame
  obtain ⟨hkey, hbehind⟩ := append_mark_cancel hcolon hcolon' hsame
  obtain ⟨hsame, htail⟩ := hvalue _ _ (List.cons.inj hbehind).2
  have hkeys : field.1 = other.1 := by rw [hname, hanother, String.toList_inj.mp hkey]
  exact ⟨Prod.ext hkeys hsame, htail⟩

/-- A rendered record tells its fields, if their names are told by the first colon and their values
by how they are rendered. -/
theorem renderRecord_cancel {fields others : List (Atom × Value)} {depth : Int}
    {rest tail : List Char} (hfields : ∀ field ∈ fields, IsLegibleField field)
    (hothers : ∀ other ∈ others, IsLegibleField other)
    (hvalue : ∀ field ∈ fields, ∀ other ∈ others, ∀ rest tail,
      field.2.renderChars (depth + 1) ++ rest = other.2.renderChars (depth + 1) ++ tail →
        field.2 = other.2 ∧ rest = tail)
    (hsame : (record fields).renderChars depth ++ rest =
      (record others).renderChars depth ++ tail) :
    fields = others ∧ rest = tail := by
  have hcons (field : Atom × Value) (fields : List (Atom × Value)) :
      (record (field :: fields)).renderChars depth = '\x7b' :: '\n' ::
        (joinLines ((field :: fields).map fun field =>
          indentation (depth + 1) ++ field.1.shown.toList ++
            ':' :: ' ' :: field.2.renderChars (depth + 1)) ++
              '\n' :: (indentation depth ++ ['\x7d'])) := by
    rw [← renderFields_eq_map, renderChars]
  refine bracketed_cancel (fun fields => (record fields).renderChars depth) rfl hcons (by decide)
    (fun field hmem other hother rest tail hline => ?_) hsame
  simp only [List.append_assoc, List.cons_append] at hline
  have hnamed := List.append_cancel_left hline
  exact renderField_cancel (hfields field hmem) (hothers other hother)
    (hvalue field hmem other hother) hnamed

/-- Two legible values that are rendered at one depth and begin in the same text are the same. -/
theorem Legible.render_cancel {value other : Value} {depth : Int} {rest tail : List Char}
    (hvalue : value.Legible) (hother : other.Legible)
    (hsame : value.renderChars depth ++ rest = other.renderChars depth ++ tail) :
    value = other ∧ rest = tail := by
  -- Both values open the same mold, so in each case only the other values of that mold are left.
  induction hvalue generalizing other depth rest tail with
  | null =>
    have hmold := Legible.null.mold_eq hother hsame
    cases hother with
    | null => exact ⟨rfl, List.append_cancel_left hsame⟩
    | text | number | boolean | node | list | record => cases hmold
  | text text =>
    have hmold := (Legible.text text).mold_eq hother hsame
    cases hother with
    | text another =>
      simp only [renderChars, Atom.written, Text.quoted, String.toList_ofList] at hsame
      obtain ⟨htext, htail⟩ := Text.quotedChars_cancel hsame
      exact ⟨by rw [String.toList_inj.mp htext], htail⟩
    | null | number | boolean | node | list | record => cases hmold
  | number number =>
    have hmold := (Legible.number number).mold_eq hother hsame
    cases hother with
    | number another =>
      obtain ⟨rfl, htail⟩ := renderInteger_cancel (renderNode_cancel hsame).2
      exact ⟨rfl, htail⟩
    | boolean => cases (renderNode_cancel hsame).1
    | node hnumber => exact absurd (renderNode_cancel hsame).1.symm hnumber
    | null | text | list | record => cases hmold
  | boolean truth =>
    have hmold := (Legible.boolean truth).mold_eq hother hsame
    cases hother with
    | boolean another =>
      obtain ⟨rfl, htail⟩ := renderBoolean_cancel (renderNode_cancel hsame).2
      exact ⟨rfl, (List.cons.inj htail).2⟩
    | number => cases (renderNode_cancel hsame).1
    | node _ hboolean => exact absurd (renderNode_cancel hsame).1.symm hboolean
    | null | text | list | record => cases hmold
  | node hnumber hboolean hinner ih =>
    have hmold := (Legible.node hnumber hboolean hinner).mold_eq hother hsame
    cases hother with
    | number => exact absurd (renderNode_cancel hsame).1 hnumber
    | boolean => exact absurd (renderNode_cancel hsame).1 hboolean
    | node _ _ hanother =>
      obtain ⟨rfl, hvalues⟩ := renderNode_cancel hsame
      obtain ⟨rfl, htail⟩ := ih hanother hvalues
      exact ⟨rfl, (List.cons.inj htail).2⟩
    | null | text | list | record => cases hmold
  | list hitems ih =>
    have hmold := (Legible.list hitems).mold_eq hother hsame
    cases hother with
    | list hothers =>
      obtain ⟨rfl, htail⟩ := renderList_cancel (fun item hitem other hother _ _ hline =>
        ih item hitem (hothers other hother) hline) hsame
      exact ⟨rfl, htail⟩
    | null | text | number | boolean | node | record => cases hmold
  | record hnames hvalues ih =>
    have hmold := (Legible.record hnames hvalues).mold_eq hother hsame
    cases hother with
    | record hothers hvalues' =>
      obtain ⟨rfl, htail⟩ := renderRecord_cancel hnames hothers
        (fun field hfield other hother _ _ hline => ih field hfield (hvalues' other hother) hline)
        hsame
      exact ⟨rfl, htail⟩
    | null | text | number | boolean | node | list => cases hmold

end Value

end BraceLang.Tree
