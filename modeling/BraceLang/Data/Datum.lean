import BraceLang.Data.Atom

/-!
# Data

What a configuration file holds, and what a syntax tree is projected onto: atoms, lists and
records whose fields have an order. A configuration file may also hold sets, pairs, and data that
are part of themselves.
-/

namespace BraceLang

/-- What stands around the parts of a value. -/
inductive Brackets where
  | list
  | record
  | pair
  deriving DecidableEq, Repr, Inhabited

/-- Some text between the brackets of a value. -/
def Brackets.around (brackets : Brackets) (text : String) : String :=
  match brackets with
  | .list => "[" ++ text ++ "]"
  | .record => "\x7b" ++ text ++ "\x7d"
  | .pair => "(" ++ text ++ ")"

/-- A value made of atoms, lists and records. -/
inductive Datum where
  | atom (value : Atom)
  | list (items : List Datum)
  | record (fields : List (Atom × Datum))
  /-- A set, its members in the order in which they are written. -/
  | set (members : List Atom)
  | pair (first second : Datum)
  /-- A value that this one is part of. -/
  | loop (brackets : Brackets)
  deriving Repr, Inhabited

namespace Datum

/-- The datum of a text. -/
def text (value : String) : Datum := .atom (.text value)

/-- The datum of a truth value. -/
def boolean (value : Bool) : Datum := .atom (.boolean value)

mutual

/-- A datum on one line: lists in brackets, records and sets in braces, texts between quotes. Where
it is part of itself dots stand for it. -/
def written : Datum → String
  | .atom value => value.written
  | .list items => Brackets.list.around (", ".intercalate (writtenItems items))
  | .record fields => Brackets.record.around (", ".intercalate (writtenFields fields))
  | .set [] => "set()"
  | .set members => Brackets.record.around (", ".intercalate (members.map Atom.written))
  | .pair first second => Brackets.pair.around (written first ++ ", " ++ written second)
  | .loop brackets => brackets.around "..."

/-- The items of a list, each as `written`. -/
def writtenItems : List Datum → List String
  | [] => []
  | item :: rest => written item :: writtenItems rest

/-- The fields of a record, each as its key and its value. -/
def writtenFields : List (Atom × Datum) → List String
  | [] => []
  | (key, value) :: rest => (key.written ++ ": " ++ written value) :: writtenFields rest

end

mutual

/-- Whether every atom of a datum can be written. -/
def isWritable : Datum → Bool
  | .atom value => value.isWritable
  | .list items => areWritable items
  | .record fields => haveWritable fields
  | .set members => members.all Atom.isWritable
  | .pair first second => isWritable first && isWritable second
  | .loop _ => true

/-- Whether all items of a list can be written. -/
def areWritable : List Datum → Bool
  | [] => true
  | item :: rest => isWritable item && areWritable rest

/-- Whether all fields of a record can be written. -/
def haveWritable : List (Atom × Datum) → Bool
  | [] => true
  | (key, value) :: rest => key.isWritable && isWritable value && haveWritable rest

end

mutual

/-- How many values are being written at once where a datum is written, itself included. The
members of a set are written as those of a list, if there are any. -/
def depth : Datum → Nat
  | .atom value => value.depth
  | .list items => depthOfItems items + 1
  | .record fields => depthOfFields fields + 1
  | .set [] => 1
  | .set (first :: rest) => Atom.depthOfAll (first :: rest) + 2
  | .pair first second => max (depth first) (depth second) + 1
  | .loop _ => 1

/-- The greatest depth of the items of a list. -/
def depthOfItems : List Datum → Nat
  | [] => 0
  | item :: rest => max (depth item) (depthOfItems rest)

/-- The greatest depth of the keys and values of a record. -/
def depthOfFields : List (Atom × Datum) → Nat
  | [] => 0
  | (key, value) :: rest => max (max key.depth (depth value)) (depthOfFields rest)

end

mutual

/-- What goes wrong first where a datum is written and no more than so many values may be written
at once. -/
def writingError? : Datum → Nat → Option WritingError
  | .atom value, room => value.writingError? room
  | .list items, room => if room = 0 then some .tooDeep else errorInItems? items (room - 1)
  | .record fields, room => if room = 0 then some .tooDeep else errorInFields? fields (room - 1)
  | .set [], room => if room = 0 then some .tooDeep else none
  | .set (first :: rest), room =>
    if room < 2 then some .tooDeep
    else (first :: rest).findSome? (·.writingError? (room - 2))
  | .pair first second, room =>
    if room = 0 then some .tooDeep
    else (writingError? first (room - 1)).or (writingError? second (room - 1))
  | .loop _, room => if room = 0 then some .tooDeep else none

/-- What goes wrong first where the items of a list are written. -/
def errorInItems? : List Datum → Nat → Option WritingError
  | [], _ => none
  | item :: rest, room => (writingError? item room).or (errorInItems? rest room)

/-- What goes wrong first where the fields of a record are written, each key before its value. -/
def errorInFields? : List (Atom × Datum) → Nat → Option WritingError
  | [], _ => none
  | (key, value) :: rest, room =>
    ((key.writingError? room).or (writingError? value room)).or (errorInFields? rest room)

end

end Datum

end BraceLang
