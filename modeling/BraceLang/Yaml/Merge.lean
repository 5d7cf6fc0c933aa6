import BraceLang.Yaml.Error
import BraceLang.Yaml.Graph

/-!
# Merging YAML mappings

A pair with the key that merges stands for the pairs of other mappings, which count as given before
the mapping's own. In the course of it the key that marks a value becomes a text.
-/

namespace BraceLang.Yaml

namespace Graph

/-- The pairs of a mapping; any other node is refused. -/
def pairs (graph : Graph) (number : Nat) : Except Error (List (Nat × Nat)) :=
  valid (graph.node number).pairs?

/-- Whether a pair merges. -/
def isMerge (graph : Graph) (pair : Nat × Nat) : Bool := graph.meaning pair.1 == .merge

/-- Takes the first pair that merges out of a mapping: its value, and the graph without it. -/
def takeMerge (graph : Graph) (number : Nat) : Except Error (Option (Nat × Graph)) := do
  let pairs ← graph.pairs number
  match pairs.span (!graph.isMerge ·) with
  | (before, (_, value) :: behind) =>
    return some (value, graph.putContent number (.mapping (before ++ behind)))
  | (_, []) => return none

/-- The graph in which a key that marks a value is a text. -/
def markAsText (graph : Graph) (number : Nat) : Graph :=
  let node := graph.node number
  if node.meaning = .value then graph.put number { node with meaning := .text } else graph

mutual

/-- Replaces the pairs of a mapping that merge by those that they stand for, in front of its own.
Each round takes a pair that merges out of the graph, so there are at most so many. -/
def merge : Nat → Graph → Nat → Except Error Graph
  | 0, _, _ => .error .invalid
  | rounds + 1, graph, number => do
    let (graph, merged) ← mergedPairs rounds graph number
    let own ← graph.pairs number
    let graph := own.foldl (fun graph (key, _) => graph.markAsText key) graph
    return if merged.isEmpty then graph else graph.putContent number (.mapping (merged ++ own))

/-- Takes all pairs that merge out of a mapping and collects those that they stand for. -/
def mergedPairs : Nat → Graph → Nat → Except Error (Graph × List (Nat × Nat))
  | 0, _, _ => .error .invalid
  | rounds + 1, graph, number => do
    match ← graph.takeMerge number with
    | none => return (graph, [])
    | some (value, graph) =>
      let (graph, early) ← pairsToMerge rounds graph value
      let (graph, late) ← mergedPairs rounds graph number
      return (graph, early ++ late)

/-- The pairs that a node gives to a mapping that merges it: those of a mapping, or of each mapping
of a sequence, the first one last. -/
def pairsToMerge : Nat → Graph → Nat → Except Error (Graph × List (Nat × Nat))
  | 0, _, _ => .error .invalid
  | rounds + 1, graph, number =>
    match (graph.node number).content with
    | .mapping _ => do
      let graph ← merge rounds graph number
      return (graph, ← graph.pairs number)
    | .sequence items =>
      items.foldlM (fun (graph, later) item => do
        let _ ← graph.pairs item
        let graph ← merge rounds graph item
        return (graph, (← graph.pairs item) ++ later)) (graph, [])
    | .scalar _ => .error .invalid

end

/-- The number of all pairs of a graph. -/
def pairCount (graph : Graph) : Nat :=
  graph.nodes.foldl (fun count node => count + (node.pairs?.getD []).length) 0

/-- A graph after the merging of a mapping, and the pairs of the mapping. There are at most so many
pairs that merge. -/
def merged (count : Nat) (graph : Graph) (number : Nat) :
    Except Error (Graph × List (Nat × Nat)) := do
  let graph ← graph.merge (3 * count + 3) number
  return (graph, ← graph.pairs number)

end Graph

end BraceLang.Yaml
