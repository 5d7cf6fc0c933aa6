import BraceLang.Data.Atom

/-!
# Kinds of atoms

Atoms of one kind have an order, and atoms of two kinds have none. All numbers are of one kind;
moments are of two, as only those with an offset have a place in universal time.
-/

namespace BraceLang.Atom

/-- The kinds of atoms. -/
inductive Kind where
  | null
  | number
  | text
  | bytes
  | date
  | localMoment
  | universalMoment
  deriving DecidableEq, Repr

/-- The kind of an atom. -/
def kind : Atom → Kind
  | .null => .null
  | .boolean _ | .integer _ | .real _ => .number
  | .text _ | .illFormed _ => .text
  | .bytes _ => .bytes
  | .date _ => .date
  | .moment value => if value.offset.isSome then .universalMoment else .localMoment

/-- How an atom is called in a complaint about its kind. -/
def kindName : Atom → String
  | .null => "NoneType"
  | .boolean _ => "bool"
  | .integer _ => "int"
  | .real _ => "float"
  | .text _ | .illFormed _ => "str"
  | .bytes _ => "bytes"
  | .date _ => "datetime.date"
  | .moment _ => "datetime.datetime"

/-- The wording of a complaint that an atom cannot be put in order with another. -/
def orderComplaint (left right : Atom) : String :=
  match left.kind, right.kind with
  | .localMoment, .universalMoment | .universalMoment, .localMoment =>
    "can't compare offset-naive and offset-aware datetimes"
  | .date, .localMoment | .date, .universalMoment | .localMoment, .date
  | .universalMoment, .date => "can't compare datetime.datetime to datetime.date"
  | _, _ =>
    "'<' not supported between instances of '" ++ left.kindName ++ "' and '" ++ right.kindName
      ++ "'"

/-- A number as an integer times a power of two, if it is finite. -/
def dyadic? : Atom → Option (Int × Int)
  | .boolean value => some (if value then 1 else 0, 0)
  | .integer value => some (value, 0)
  | .real (.finite negative significand exponent) =>
    some (if negative then -significand else significand, exponent)
  | _ => none

/-- Whether a number is less than another; the undefined number is not. -/
def isBelow (left right : Atom) : Bool :=
  match left, right with
  | .real (.infinite negative), .real (.infinite other) => negative && !other
  | .real (.infinite negative), right => negative && right.dyadic?.isSome
  | left, .real (.infinite negative) => !negative && left.dyadic?.isSome
  | left, right =>
    match left.dyadic?, right.dyadic? with
    | some (m, j), some (n, k) =>
      decide (m * Nat.pow 2 (j - min j k).toNat < n * Nat.pow 2 (k - min j k).toNat)
    | _, _ => false

/-- The least of some numbers. -/
def least (first : Atom) (rest : List Atom) : Atom :=
  rest.foldl (fun least atom => if atom.isBelow least then atom else least) first

/-- The text of an atom, if it is one. -/
def text? : Atom → Option String
  | .text value => some value
  | .illFormed points => some (String.ofList (Text.joined points))
  | _ => none

end BraceLang.Atom
