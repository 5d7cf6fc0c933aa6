import BraceLang.Data.Datum
import BraceLang.Number.Placement
import BraceLang.Yaml.Document
import BraceLang.Yaml.Tokenizing
import BraceLang.Yaml.Value

/-!
# YAML as data

The values of the nodes of a document are put together to one datum. Where a value is part of
itself it is not entered again. The document, what it holds and what that holds are entered as if
nothing were around them, so that each of these can be shown for itself.

This is the loader that grammar files are read with where the program runs. Reading a grammar takes
any loader, and nothing that is proved of it rests on this one.
-/

namespace BraceLang.Yaml

/-- The residue of a number, if an atom is one that is defined. -/
def residue? : Atom → Option Int
  | .boolean value => some (if value then 1 else 0)
  | .integer value => some (integerResidue value)
  | .real .nan => none
  | .real value => some value.residue
  | _ => none

/-- The members of a set in the order in which they are written: numbers by their places in a
table, and other atoms as they are given. -/
def inTableOrder (members : List Atom) : List Atom :=
  match members.mapM residue? with
  | some residues =>
    let placed := members.zip (Placement.places residues)
    (placed.mergeSort fun left right => decide (left.2 ≤ right.2)).map Prod.fst
  | none => members

/-- A value that is entered: its node, and which of its pairs if it is one. -/
abbrev Entry := Nat × Option Nat

/-- What a value is inside of: how many levels are entered as if nothing were around them, and
behind those the values that have been entered. -/
structure Surroundings where
  fresh : Nat
  entered : List Entry

/-- The surroundings of the parts of a value. -/
def Surroundings.enter (around : Surroundings) (entry : Entry) : Surroundings :=
  if around.fresh = 0 then ⟨0, entry :: around.entered⟩ else ⟨around.fresh - 1, []⟩

/-- The unfolding of data, which keeps what is the same wherever its node stands. -/
abbrev Unfolding := StateM (Array (Option Datum))

/-- Unfolds data one by one and puts them together. -/
def unfoldAll {α β : Type} (unfold : α → Unfolding (β × Bool)) (items : List α) :
    Unfolding (List β × Bool) := do
  let unfolded ← items.mapM unfold
  return (unfolded.map Prod.fst, unfolded.all Prod.snd)

/-- Unfolds the datum of a node, and tells whether nothing in it leads back; there are at most so
many levels. -/
def unfold (values : Array (Option Value)) : Nat → Surroundings → Nat → Unfolding (Datum × Bool)
  | 0, _, _ => return (.loop .list, false)
  | levels + 1, around, number => do
    if let some datum := ((← get)[number]?).join then return (datum, true)
    let inside := around.enter (number, none)
    let isInside := around.entered.contains (number, none)
    let (datum, loopFree) ←
      match (values[number]?).join with
      | none => pure (.atom .null, true)
      | some (.atom key) => pure (.atom key.atom, true)
      | some (.list items) =>
        if isInside then pure (.loop .list, false)
        else do
          let (items, loopFree) ← unfoldAll (unfold values levels inside) items
          pure (.list items, loopFree)
      | some (.record fields) =>
        if isInside then pure (.loop .record, false)
        else do
          let (fields, loopFree) ← unfoldAll (fun (key, value) => do
            let (value, loopFree) ← unfold values levels inside value
            pure ((key.atom, value), loopFree)) fields
          pure (.record fields, loopFree)
      | some (.set members) => pure (.set (inTableOrder (members.map Key.atom)), true)
      | some (.pairs pairs) =>
        if isInside then pure (.loop .list, false)
        else do
          let (items, loopFree) ← unfoldAll (fun ((first, second), place) => do
            let entry := (number, some place)
            if inside.entered.contains entry then pure (.loop .pair, false)
            else
              let within := inside.enter entry
              let (first, firstFree) ← unfold values levels within first
              let (second, secondFree) ← unfold values levels within second
              pure (.pair first second, firstFree && secondFree)) pairs.zipIdx
          pure (.list items, loopFree)
    if loopFree then modify fun known => known.setIfInBounds number (some datum)
    return (datum, loopFree)

/-- The levels of a datum that are entered as if nothing were around them. -/
def freshLevels : Nat := 2

/-- The datum of a node. -/
def Valuation.datum (valuation : Valuation) (root : Nat) : Datum :=
  let count := valuation.values.size
  let known : Array (Option Datum) := Array.replicate count none
  ((unfold valuation.values (count + freshLevels + 1) ⟨freshLevels, []⟩ root).run known).1.1

/-- The datum of a text with line feeds only, for a program that is given no loader of its own. -/
def datumOf (text : List Char) : Except Error Datum := do
  let (graph, root) ← Graph.ofTokens (tokens text)
  let valuation ← Valuation.ofGraph graph root
  return valuation.datum root

end BraceLang.Yaml
