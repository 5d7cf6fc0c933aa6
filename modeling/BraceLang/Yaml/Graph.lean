import BraceLang.Yaml.Meaning

/-!
# Graphs of YAML nodes

The nodes of a document are numbered. A collection holds the numbers of its parts, so that an alias
is the number of a node once more, and a node may even be part of itself.
-/

namespace BraceLang.Yaml

/-- What is in a node. -/
inductive Content where
  | scalar (text : List Text.Point)
  | sequence (items : List Nat)
  | mapping (pairs : List (Nat × Nat))
  deriving Repr

/-- A node. -/
structure Node where
  meaning : Meaning
  content : Content
  deriving Repr

namespace Node

/-- The node for nothing. -/
def empty : Node := ⟨.null, .scalar []⟩

/-- The pairs of a mapping. -/
def pairs? (node : Node) : Option (List (Nat × Nat)) :=
  match node.content with
  | .mapping pairs => some pairs
  | _ => none

/-- The items of a sequence. -/
def items? (node : Node) : Option (List Nat) :=
  match node.content with
  | .sequence items => some items
  | _ => none

end Node

/-- Nodes with their numbers. -/
structure Graph where
  nodes : Array Node
  deriving Repr

namespace Graph

/-- The graph without nodes. -/
def empty : Graph := ⟨#[]⟩

/-- The node of a number. Other numbers stand for nothing. -/
def node (graph : Graph) (number : Nat) : Node := graph.nodes.getD number .empty

/-- Adds a node, with the next number. -/
def add (graph : Graph) (node : Node) : Nat × Graph :=
  (graph.nodes.size, ⟨graph.nodes.push node⟩)

/-- Puts a node in the place of another one. -/
def put (graph : Graph) (number : Nat) (node : Node) : Graph :=
  ⟨graph.nodes.setIfInBounds number node⟩

/-- Puts content in the place of that of a node. -/
def putContent (graph : Graph) (number : Nat) (content : Content) : Graph :=
  graph.put number { graph.node number with content }

/-- The meaning of a node. -/
def meaning (graph : Graph) (number : Nat) : Meaning := (graph.node number).meaning

end Graph

end BraceLang.Yaml
