import BraceLang.Data.Moment
import BraceLang.Number.Numeral

/-!
# Atoms

The indivisible values that configuration files and syntax trees hold.
-/

namespace BraceLang

/-- A value without parts. -/
inductive Atom where
  | null
  | boolean (value : Bool)
  | integer (value : Int)
  | real (value : Binary64)
  | text (value : String)
  /-- A text that is no row of characters, as it holds surrogates. -/
  | illFormed (text : List Text.Point)
  | bytes (values : List Nat)
  | date (value : Date)
  | moment (value : Moment)
  deriving DecidableEq, Repr, Inhabited

/-- Why a value cannot be written. -/
inductive WritingError where
  /-- An integer has more digits than a numeral may have. -/
  | tooManyDigits
  /-- More values stand inside one another than may be written at once. -/
  | tooDeep
  deriving DecidableEq, Repr

/-- The wording of an error. -/
def WritingError.message : WritingError → String
  | .tooManyDigits =>
    s!"Exceeds the limit ({Numeral.maxDigits} digits) for integer string conversion; " ++
      "use sys.set_int_max_str_digits() to increase the limit"
  | .tooDeep => "maximum recursion depth exceeded while getting the repr of an object"

namespace Atom

/-- An atom as it is written inside other data: a text between quotes. -/
def written : Atom → String
  | .null => "None"
  | .boolean value => if value then "True" else "False"
  | .integer value => toString value
  | .real value => value.text
  | .text value => Text.quoted value
  | .illFormed points => String.ofList (Text.quotedPoints points)
  | .bytes values => String.ofList (Text.quotedBytes values)
  | .date value => value.written
  | .moment value => value.written

/-- An atom as it is shown: a text as it is, all others as they are written. -/
def shown : Atom → String
  | .text value => value
  | atom => atom.written

/-- Whether an atom can be written: an integer may not have more digits than a numeral. -/
def isWritable : Atom → Bool
  | .integer value => decide (value.natAbs < Nat.pow 10 Numeral.maxDigits)
  | _ => true

/-- How many values are being written at once where an atom is written, itself included: a moment is
written with its zone, and a zone other than universal time with its offset. -/
def depth : Atom → Nat
  | .moment ⟨_, _, some minutes⟩ => if minutes = 0 then 2 else 3
  | _ => 1

/-- The greatest depth of some atoms. -/
def depthOfAll : List Atom → Nat
  | [] => 0
  | atom :: rest => max atom.depth (depthOfAll rest)

/-- What goes wrong where an atom is written and no more than so many values may be written at
once. -/
def writingError? (atom : Atom) (room : Nat) : Option WritingError :=
  if room < atom.depth then some .tooDeep
  else if atom.isWritable then none
  else some .tooManyDigits

/-- The number that an atom counts as when it is a key; truth values count as one and zero. -/
def asInteger? : Atom → Option Int
  | .boolean value => some (if value then 1 else 0)
  | .integer value => some value
  | _ => none

/-- Whether two atoms are the same key: numbers are compared by value across their forms, and an
undefined number is like no key. -/
def sameKey (a b : Atom) : Bool :=
  match a.asInteger?, b.asInteger? with
  | some m, some n => m == n
  | some m, none => match b with
    | .real value => value.equalsInt m
    | _ => false
  | none, some n => match a with
    | .real value => value.equalsInt n
    | _ => false
  | none, none => match a, b with
    | .real .nan, _ => false
    | .real (.finite _ 0 _), .real (.finite _ 0 _) => true
    | .moment left, .moment right => left.same right
    | _, _ => a == b

end Atom

/-- Fields in the order in which their keys were first given. -/
abbrev Fields (α : Type) := List (Atom × α)

namespace Fields

variable {α : Type}

/-- Gives a field: in its place if the key is already there, else at the end. -/
def insert (key : Atom) (value : α) : Fields α → Fields α
  | [] => [(key, value)]
  | (other, old) :: rest =>
    if other.sameKey key then (other, value) :: rest else (other, old) :: insert key value rest

/-- The fields of a list of pairs, the last value of a key counting. -/
def ofPairs (pairs : List (Atom × α)) : Fields α :=
  pairs.foldl (fun fields (key, value) => fields.insert key value) []

/-- The value of a key. -/
def get? (fields : Fields α) (key : Atom) : Option α :=
  (fields.find? fun field => field.1.sameKey key).map Prod.snd

end Fields

end BraceLang
