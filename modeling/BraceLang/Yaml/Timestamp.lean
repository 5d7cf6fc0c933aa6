import BraceLang.Data.Moment

/-!
# Timestamps of YAML

A timestamp is a date, or a date and a time of day with a fraction of a second and an offset if
wanted. The month, the day and the hour may have one digit; a date alone is only taken for a
timestamp without being told so if it has all its digits.
-/

namespace BraceLang.Yaml

/-- What a timestamp says: a date, and the time on it with its offset if there are any. -/
structure Timestamp where
  date : Date
  time : Option (TimeOfDay × Option Int)
  deriving DecidableEq, Repr

namespace Timestamp

/-- The number that some digits of ASCII stand for. -/
def number (digits : List Char) : Nat :=
  digits.foldl (fun value digit => 10 * value + (digit.toNat - 48)) 0

/-- Reads at least and at most so many digits. -/
def digits? (least most : Nat) (text : List Char) : Option (Nat × List Char) :=
  let digits := (text.take most).takeWhile Char.isDigit
  if digits.length < least then none else some (number digits, text.drop digits.length)

/-- Reads a given character. -/
def mark? (mark : Char) : List Char → Option (List Char)
  | c :: rest => if c = mark then some rest else none
  | [] => none

/-- Reads a date. -/
def date? (text : List Char) : Option (Date × List Char) := do
  let (year, rest) ← digits? 4 4 text
  let (month, rest) ← digits? 1 2 (← mark? '-' rest)
  let (day, rest) ← digits? 1 2 (← mark? '-' rest)
  return (⟨year, month, day⟩, rest)

/-- A space or a tab. -/
def isGap (c : Char) : Bool := c == ' ' || c == '\t'

/-- Reads what stands between a date and a time. -/
def gap? : List Char → Option (List Char)
  | [] => none
  | c :: rest =>
    if c = 'T' ∨ c = 't' then some rest
    else if isGap c then some (rest.dropWhile isGap)
    else none

/-- Reads a fraction of a second, if there is one, as microseconds; digits beyond are dropped. -/
def fraction : List Char → Nat × List Char
  | '.' :: rest =>
    let (digits, behind) := rest.span Char.isDigit
    (number (digits.take 6) * Nat.pow 10 (6 - digits.length), behind)
  | rest => (0, rest)

/-- Reads a time of day. -/
def time? (text : List Char) : Option (TimeOfDay × List Char) := do
  let (hour, rest) ← digits? 1 2 text
  let (minute, rest) ← digits? 2 2 (← mark? ':' rest)
  let (second, rest) ← digits? 2 2 (← mark? ':' rest)
  let (microsecond, rest) := fraction rest
  return (⟨hour, minute, second, microsecond⟩, rest)

/-- The minutes of an offset from its hours and, if there are any, minutes. -/
def offsetMinutes? (text : List Char) : Option Int := do
  let (hours, rest) ← digits? 1 2 text
  match rest with
  | [] => return hours * 60
  | rest =>
    let (minutes, rest) ← digits? 2 2 (← mark? ':' rest)
    guard rest.isEmpty
    return hours * 60 + minutes

/-- Reads an offset up to the end, if there is one. -/
def offset? (text : List Char) : Option (Option Int) :=
  match text, text.dropWhile isGap with
  | [], _ => some none
  | _, ['Z'] => some (some 0)
  | _, '+' :: rest => (offsetMinutes? rest).map some
  | _, '-' :: rest => (offsetMinutes? rest).map fun minutes => some (-minutes)
  | _, _ => none

/-- Reads a timestamp. -/
def ofText? (text : List Char) : Option Timestamp := do
  let (date, rest) ← date? text
  match rest with
  | [] => return ⟨date, none⟩
  | rest =>
    let (time, rest) ← time? (← gap? rest)
    return ⟨date, some (time, ← offset? rest)⟩

/-- Whether a text is taken for a timestamp without being told so. -/
def isPlain (text : List Char) : Bool :=
  match ofText? text with
  | some ⟨_, none⟩ => text.length == 10
  | some ⟨_, some _⟩ => true
  | none => false

end Timestamp

end BraceLang.Yaml
