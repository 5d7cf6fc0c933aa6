import BraceLang.Number.Residue

/-!
# Places of residues in a table

Residues are put into a table one after the other. Each stands where its last bits say or, if that
place is taken, at the next free one in rows of places that the residue determines. The table has
room for twice as many, so that there is always a free place.
-/

namespace BraceLang

/-- A table, which has a power of two of places. -/
structure Placement where
  size : Nat
  /-- The places that are taken, as the bits of a number. -/
  taken : Nat
  deriving DecidableEq, Repr

namespace Placement

/-- The empty table for so many residues. -/
def ofCount (count : Nat) : Placement :=
  ⟨if count < 5 then 8 else Nat.pow 2 ((2 * count).log2 + 1), 0⟩

/-- The places that are tried one after the other from a first one on: ten, or only the first
where the table ends before that. -/
def row (table : Placement) (first : Nat) : List Nat :=
  List.range' first (if first + 9 < table.size then 10 else 1)

/-- The first free place in so many rows. Where the next row begins depends on where the last one
began and on the bits of the residue that have not been used. -/
def firstFree (table : Placement) : Nat → Nat → Nat → Nat
  | 0, _, first => first
  | rows + 1, residue, first =>
    match (table.row first).find? fun place => !table.taken.testBit place with
    | some place => place
    | none =>
      let unused := residue / 32
      table.firstFree rows unused ((5 * first + 1 + unused) % table.size)

/-- The place of the next residue. Once its 64 bits are used the rows begin at every place. -/
def placeOf (table : Placement) (residue : Int) : Nat :=
  let bits := (residue % Nat.pow 2 64).toNat
  table.firstFree (13 + table.size) bits (bits % table.size)

/-- A table in which one more place is taken. -/
def take (table : Placement) (place : Nat) : Placement :=
  { table with taken := table.taken ||| Nat.pow 2 place }

/-- The places of residues that are put into a table. -/
def placesIn : Placement → List Int → List Nat
  | _, [] => []
  | table, residue :: rest =>
    let place := table.placeOf residue
    place :: placesIn (table.take place) rest

/-- Every residue has a place. -/
theorem placesIn_length (table : Placement) (residues : List Int) :
    (table.placesIn residues).length = residues.length := by
  induction residues generalizing table with
  | nil => rfl
  | cons residue rest ih => simp [placesIn, ih]

/-- The places of residues in a table for them. -/
def places (residues : List Int) : List Nat := (ofCount residues.length).placesIn residues

end Placement

end BraceLang
