import BraceLang.Yaml.Literal
import BraceLang.Yaml.Merge

/-!
# Values of YAML nodes

Each node gets a value once. A scalar gets it when it is met first; a collection then waits in a
row, and the parts of the collections are met in the order of that row, so of several errors the
one nearest to the root is told. The keys of mappings and sets have to be atoms; where a key is
given twice the last value counts.
-/

namespace BraceLang.Yaml

/-- An atom as a key. Numbers that are undefined are one key only if they come from one place. -/
structure Key where
  atom : Atom
  place : Nat
  deriving Repr

/-- Whether two keys are the same. -/
def Key.same (left right : Key) : Bool :=
  left.atom.sameKey right.atom ||
    (left.atom == .real .nan && right.atom == .real .nan && left.place == right.place)

/-- The value of a node, whose parts are numbers of nodes. -/
inductive Value where
  | atom (key : Key)
  | list (items : List Nat)
  | record (fields : List (Key × Nat))
  | set (members : List Key)
  | pairs (pairs : List (Nat × Nat))
  deriving Repr

/-- Gives a field: in its place if the key is already there, else at the end. -/
def insertField (key : Key) (value : Nat) : List (Key × Nat) → List (Key × Nat)
  | [] => [(key, value)]
  | (other, old) :: rest =>
    if other.same key then (other, value) :: rest else (other, old) :: insertField key value rest

/-- The values that nodes have so far, and the collections that wait for theirs. -/
structure Valuation where
  graph : Graph
  values : Array (Option Value)
  /-- All collections that have been met, in that order. -/
  row : Array Nat
  /-- Whether a node is in the row. -/
  met : Array Bool
  /-- How many pairs there are that may merge. -/
  mergeCount : Nat
  deriving Repr

namespace Valuation

/-- The values of a graph before any node is met. -/
def start (graph : Graph) : Valuation where
  graph := graph
  values := Array.replicate graph.nodes.size none
  row := #[]
  met := Array.replicate graph.nodes.size false
  mergeCount := graph.pairCount

/-- The value of a node, if it has got one. -/
def value? (valuation : Valuation) (number : Nat) : Option Value :=
  (valuation.values[number]?).join

/-- Gives a node its value. -/
def give (valuation : Valuation) (number : Nat) (value : Value) : Valuation :=
  { valuation with values := valuation.values.setIfInBounds number (some value) }

/-- Puts a collection at the end of the row, unless it is there. -/
def wait (valuation : Valuation) (number : Nat) : Valuation :=
  if valuation.met.getD number true then valuation
  else
    { valuation with
      row := valuation.row.push number
      met := valuation.met.setIfInBounds number true }

/-- The text of a scalar. That of a mapping is the text of the value that it marks, where so many
steps lead to a scalar. -/
def scalarText (graph : Graph) : Nat → Nat → Except Error (List Text.Point)
  | 0, _ => .error .invalid
  | steps + 1, number =>
    match (graph.node number).content with
    | .scalar text => .ok text
    | .sequence _ => .error .invalid
    | .mapping pairs =>
      match pairs.find? fun (key, _) => graph.meaning key == .value with
      | some (_, value) => scalarText graph steps value
      | none => .error .invalid

/-- Whether nodes of a meaning are collections. -/
def isCollection : Meaning → Bool
  | .sequence | .mapping | .set | .pairs => true
  | _ => false

/-- The place that the value of a node comes from: the node, but one place for all undefined numbers
that are spelled by the word for it. -/
def placeOf (number : Nat) (atom : Atom) (text : List Text.Point) : Nat :=
  if atom == .real .nan && Literal.isUndefinedWord text then 0 else number + 1

/-- Reads the value of a scalar. -/
def readScalar (graph : Graph) (number : Nat) : Except Error Value := do
  let node := graph.node number
  let text ← scalarText graph (graph.nodes.size + 1) number
  if node.meaning = .timestamp ∧ node.pairs?.isSome then throw .momentIsMapping
  let atom ← Literal.atom node.meaning text
  return .atom ⟨atom, placeOf number atom text⟩

/-- Meets a node: a scalar gets its value, and a collection waits for it. -/
def meet (valuation : Valuation) (number : Nat) : Except Error Valuation := do
  if isCollection (valuation.graph.meaning number) then return valuation.wait number
  else if (valuation.value? number).isSome then return valuation
  else return valuation.give number (← readScalar valuation.graph number)

/-- Meets a node that is a key. -/
def meetKey (valuation : Valuation) (number : Nat) : Except Error (Valuation × Key) := do
  let valuation ← valuation.meet number
  match valuation.value? number with
  | some (.atom key) => return (valuation, key)
  | _ => throw .invalid

/-- Meets the keys and values of a mapping, and collects its fields. -/
def meetFields (valuation : Valuation) (pairs : List (Nat × Nat)) :
    Except Error (Valuation × List (Key × Nat)) :=
  pairs.foldlM (fun (valuation, fields) (key, value) => do
    let (valuation, key) ← valuation.meetKey key
    let valuation ← valuation.meet value
    return (valuation, insertField key value fields)) (valuation, [])

/-- Meets the parts of a mapping after merging. -/
def meetMapping (valuation : Valuation) (number : Nat) :
    Except Error (Valuation × List (Key × Nat)) := do
  let (graph, pairs) ← valuation.graph.merged valuation.mergeCount number
  { valuation with graph }.meetFields pairs

/-- The one pair of a mapping. -/
def onePair (graph : Graph) (number : Nat) : Except Error (Nat × Nat) := do
  match ← graph.pairs number with
  | [pair] => return pair
  | _ => throw .invalid

/-- Meets the parts of the mappings of one pair in a sequence, and collects the pairs. -/
def meetPairs (valuation : Valuation) :
    List Nat → Except Error (Valuation × List (Nat × Nat))
  | [] => .ok (valuation, [])
  | item :: rest => do
    let (key, value) ← onePair valuation.graph item
    let valuation ← (← valuation.meet key).meet value
    let (valuation, pairs) ← valuation.meetPairs rest
    return (valuation, (key, value) :: pairs)

/-- Gives a collection its value, after meeting its parts. -/
def settle (valuation : Valuation) (number : Nat) : Except Error Valuation := do
  let node := valuation.graph.node number
  match node.meaning with
  | .mapping =>
    let (valuation, fields) ← valuation.meetMapping number
    return valuation.give number (.record fields)
  | .set =>
    let (valuation, fields) ← valuation.meetMapping number
    return valuation.give number (.set (fields.map Prod.fst))
  | .pairs =>
    let (valuation, pairs) ← valuation.meetPairs (← valid node.items?)
    return valuation.give number (.pairs pairs)
  | _ =>
    let items ← valid node.items?
    let valuation ← items.foldlM meet valuation
    return valuation.give number (.list items)

/-- Settles the collections in the row from a place on, at most so many. -/
def settleFrom : Nat → Nat → Valuation → Except Error Valuation
  | 0, _, valuation => .ok valuation
  | count + 1, place, valuation =>
    match valuation.row[place]? with
    | some number => do settleFrom count (place + 1) (← valuation.settle number)
    | none => .ok valuation

/-- The values of all nodes that a root leads to. -/
def ofGraph (graph : Graph) (root : Nat) : Except Error Valuation := do
  let valuation ← (start graph).meet root
  settleFrom graph.nodes.size 0 valuation

end Valuation

end BraceLang.Yaml
