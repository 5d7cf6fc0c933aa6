import BraceLang.Tree.Node

/-!
# Paths in trees

A path goes from a node to a node directly below it, and so on. The key of the field that it takes
where a node holds a record tells the edges of a node apart. Some edges may be taken for free; the
length of a path is the number of the others.
-/

namespace BraceLang.Tree

namespace Node

/-- The nodes directly below a node, each with the key of the field that it lies in, if the node
holds a record. -/
def edges (node : Node) : List (Option Atom × Node) :=
  match node.value with
  | .record fields => fields.flatMap fun (key, value) => value.children.map (some key, ·)
  | value => value.children.map (none, ·)

/-- The edges of a node lead to the nodes directly below it, in order. -/
theorem map_snd_edges (node : Node) : node.edges.map Prod.snd = node.children := by
  obtain ⟨tag, value⟩ := node
  cases value with
  | record fields =>
    induction fields with
    | nil => rfl
    | cons field rest ih =>
      have hrest : ((rest.flatMap fun (key, value) => value.children.map (some key, ·)).map
          Prod.snd : List Node) = Value.childrenOfFields rest := ih
      simp [edges, children, Value.children, Value.childrenOfFields, hrest, Function.comp_def]
  | atom | node | list => simp [edges, children, Function.comp_def]

/-- A path of some length to a node, where the edges that a test picks are free. -/
inductive Path (free : Node → Option Atom → Node → Bool) : Node → Nat → Node → Prop
  | here (node : Node) : Path free node 0 node
  | free {node child last : Node} {key : Option Atom} {length : Nat} :
    (key, child) ∈ node.edges → free node key child = true → Path free child length last →
    Path free node length last
  | counted {node child last : Node} {key : Option Atom} {length : Nat} :
    (key, child) ∈ node.edges → free node key child = false → Path free child length last →
    Path free node (length + 1) last

variable {free : Node → Option Atom → Node → Bool}

/-- A path from below, with the edge to it. -/
theorem Path.behind {node child last : Node} {key : Option Atom} {length : Nat}
    (hedge : (key, child) ∈ node.edges) (hpath : Path free child length last) :
    Path free node (if free node key child then length else length + 1) last := by
  cases hfree : free node key child with
  | true => exact .free hedge hfree hpath
  | false => exact .counted hedge hfree hpath

/-- If only edges are free that two tests agree on, a path is not longer than it is by the one test
and by the other together. -/
theorem Path.exists_le {one other : Node → Option Atom → Node → Bool}
    (hfree : ∀ node key child, one node key child = true → other node key child = true →
      free node key child = true) {node last : Node} {length : Nat}
    (hpath : Path free node length last) :
    ∃ first second, Path one node first last ∧ Path other node second last ∧
      length ≤ first + second := by
  induction hpath with
  | here node => exact ⟨0, 0, .here node, .here node, Nat.le_refl 0⟩
  | free hedge _ _ ih =>
    obtain ⟨first, second, hfirst, hsecond, hlength⟩ := ih
    refine ⟨_, _, .behind hedge hfirst, .behind hedge hsecond, ?_⟩
    split <;> split <;> omega
  | @counted node child _ key _ hedge hcounted _ ih =>
    obtain ⟨first, second, hfirst, hsecond, hlength⟩ := ih
    refine ⟨_, _, .behind hedge hfirst, .behind hedge hsecond, ?_⟩
    by_cases hone : one node key child = true
    · have hother : ¬ other node key child = true := fun hother => by
        rw [hfree _ _ _ hone hother] at hcounted
        cases hcounted
      rw [if_pos hone, if_neg hother]
      omega
    · rw [if_neg hone]
      split <;> omega

/-- No path from a node is longer than a bound. -/
def Within (free : Node → Option Atom → Node → Bool) (bound : Nat) (node : Node) : Prop :=
  ∀ length last, Path free node length last → length ≤ bound

/-- Paths are within every greater bound. -/
theorem Within.mono {node : Node} {bound more : Nat} (hnode : node.Within free bound)
    (hmore : bound ≤ more) : node.Within free more :=
  fun length last hpath => Nat.le_trans (hnode length last hpath) hmore

end Node

/-- All outermost nodes of a value have their paths within a bound. -/
def Value.Within (free : Node → Option Atom → Node → Bool) (bound : Nat) (value : Value) : Prop :=
  ∀ child ∈ value.children, child.Within free bound

variable {free : Node → Option Atom → Node → Bool} {bound less : Nat}

namespace Value

/-- Paths of values are within every greater bound. -/
theorem Within.mono {value : Value} (hvalue : value.Within free less) (hless : less ≤ bound) :
    value.Within free bound :=
  fun child hchild => (hvalue child hchild).mono hless

/-- An atom lies within every bound. -/
@[simp] theorem within_atom (value : Atom) : Value.Within free bound (.atom value) :=
  fun _ hchild => nomatch hchild

/-- So does a text. -/
@[simp] theorem within_text (value : String) : Value.Within free bound (.text value) :=
  within_atom (.text value)

/-- A node lies within a bound as a value when it does as a node. -/
@[simp] theorem within_toValue (node : Node) :
    node.toValue.Within free bound ↔ node.Within free bound :=
  List.forall_mem_singleton

/-- The nodes of a list are those of its items. -/
@[simp] theorem within_list (items : List Value) :
    Value.Within free bound (.list items) ↔ ∀ item ∈ items, item.Within free bound := by
  induction items with
  | nil => exact ⟨fun _ => List.forall_mem_nil _, fun _ => List.forall_mem_nil _⟩
  | cons item rest ih =>
    rw [List.forall_mem_cons, ← ih]
    exact List.forall_mem_append

/-- The nodes of a record are those of its fields. -/
@[simp] theorem within_record (fields : List (Atom × Value)) :
    Value.Within free bound (.record fields) ↔
      ∀ field ∈ fields, field.2.Within free bound := by
  induction fields with
  | nil => exact ⟨fun _ => List.forall_mem_nil _, fun _ => List.forall_mem_nil _⟩
  | cons field rest ih =>
    rw [List.forall_mem_cons, ← ih]
    exact List.forall_mem_append

/-- A record lies within a bound when each of its fields does. -/
@[simp] theorem within_named (fields : List (String × Value)) :
    Value.Within free bound (.named fields) ↔
      ∀ field ∈ fields, field.2.Within free bound := by
  rw [named, within_record, List.forall_mem_map]

end Value

namespace Node.Within

/-- Paths from a node are within a bound if those from its free edges on are, and those from its
other edges on are shorter. -/
theorem of_edges {node : Node}
    (hedges : ∀ key child, (key, child) ∈ node.edges →
      free node key child = true ∧ child.Within free bound ∨
        ∃ less < bound, child.Within free less) : node.Within free bound := by
  intro length last hpath
  cases hpath with
  | here => exact Nat.zero_le bound
  | free hedge hfree hrest =>
    rcases hedges _ _ hedge with ⟨-, hchild⟩ | ⟨less, hless, hchild⟩
    · exact hchild _ _ hrest
    · exact Nat.le_trans (hchild _ _ hrest) (Nat.le_of_lt hless)
  | counted hedge hcounted hrest =>
    rcases hedges _ _ hedge with ⟨hfree, -⟩ | ⟨less, hless, hchild⟩
    · rw [hcounted] at hfree
      cases hfree
    · exact Nat.lt_of_le_of_lt (hchild _ _ hrest) hless

/-- Whatever the value of a node is, its nodes are one edge further away. -/
theorem of_value {tag : Tag} {value : Value} (hless : less < bound)
    (hvalue : value.Within free less) : Node.Within free bound ⟨tag, value⟩ := by
  refine of_edges fun key child hedge => .inr ⟨less, hless, hvalue child ?_⟩
  have hchild := List.mem_map_of_mem (f := Prod.snd) hedge
  rwa [map_snd_edges] at hchild

/-- A node that holds nothing but an atom. -/
theorem leaf {tag : Tag} (value : Atom) : Node.Within free bound ⟨tag, .atom value⟩ :=
  of_edges fun _ _ hedge => nomatch hedge

/-- The nodes of a record are one edge further away unless their edge is free. -/
theorem named {tag : Tag} {fields : List (String × Value)}
    (hfields : ∀ field ∈ fields,
      (∃ less < bound, field.2.Within free less) ∨
        field.2.Within free bound ∧
          ∀ child ∈ field.2.children,
            free ⟨tag, .named fields⟩ (some (.text field.1)) child = true) :
    Node.Within free bound ⟨tag, .named fields⟩ := by
  refine of_edges fun key child hedge => ?_
  obtain ⟨⟨_, value⟩, hfield, hkey⟩ := List.mem_flatMap.mp hedge
  obtain ⟨field, hmem, hnamed⟩ := List.mem_map.mp hfield
  obtain ⟨rfl, rfl⟩ := Prod.mk.inj hnamed
  obtain ⟨_, hchild, hsame⟩ := List.mem_map.mp hkey
  obtain ⟨rfl, rfl⟩ := Prod.mk.inj hsame
  rcases hfields field hmem with ⟨less, hless, hvalue⟩ | ⟨hvalue, hfree⟩
  · exact .inr ⟨less, hless, hvalue _ hchild⟩
  · exact .inl ⟨hfree _ hchild, hvalue _ hchild⟩

end Node.Within

end BraceLang.Tree
