import BraceLang.Data.Atom
import BraceLang.Number.Arithmetic
import BraceLang.Text.Base64
import BraceLang.Yaml.Error
import BraceLang.Yaml.Meaning

/-!
# Literals of YAML

How the text of a scalar is read as what it stands for. A tag may name any meaning for any text, so
each reading may fail.
-/

namespace BraceLang.Yaml.Literal

open Text (Point)

/-- Reads a truth value in any mixture of capitals. -/
def boolean (text : List Point) : Except Error Bool :=
  let word := Text.lowered text
  match (Text.chars? word).map String.ofList with
  | some "yes" | some "true" | some "on" => .ok true
  | some "no" | some "false" | some "off" => .ok false
  | _ => .error (.notBoolean word)

/-- A text without its underscores. -/
def withoutUnderscores (text : List Point) : List Point := text.filter (· != .char '_')

/-- Whether a number has a minus sign, and its text without a sign. -/
def splitSign : List Point → Except Error (Bool × List Point)
  | [] => .error .numberEmpty
  | .char '-' :: rest => .ok (true, rest)
  | .char '+' :: rest => .ok (false, rest)
  | rest => .ok (false, rest)

/-- A text in ASCII; a surrogate becomes a question mark, which is in no numeral. -/
def asciiText (text : List Point) : List Char :=
  text.map fun
    | .char c => Numeral.asciiForm c
    | .surrogate _ => '?'

/-- Reads an integer to a base that is a power of two. -/
def integerOf (base : Nat) (text : List Point) : Except Error Int :=
  match Numeral.integerOf? base (asciiText text) with
  | some value => .ok value
  | none => .error (.notInteger base text)

/-- Reads an integer to the base ten. -/
def decimalInteger (text : List Point) : Except Error Int :=
  (Numeral.integer (asciiText text)).mapError fun
    | .malformed => .notInteger 10 text
    | .tooManyDigits count => .tooManyDigits count

/-- Reads an integer without its sign. The base is told by what it begins with; with colons it has
places to the base sixty, each of which may be any integer. -/
def magnitude : List Point → Except Error Int
  | [] => .error .numberEmpty
  | [.char '0'] => .ok 0
  | .char '0' :: .char 'b' :: digits => integerOf 2 digits
  | .char '0' :: .char 'x' :: digits => integerOf 16 digits
  | .char '0' :: digits => integerOf 8 (.char '0' :: digits)
  | text => do
    let places ← (partsBetween (.char ':') text).mapM decimalInteger
    return places.foldl (fun value place => 60 * value + place) 0

/-- Reads an integer. -/
def integer (text : List Point) : Except Error Int := do
  let (negative, body) ← splitSign (withoutUnderscores text)
  let value ← magnitude body
  return if negative then -value else value

/-- Reads a real without marks of YAML. -/
def decimalReal (text : List Point) : Except Error Binary64 :=
  match Numeral.real? (asciiText text) with
  | some value => .ok value
  | none => .error (.notReal text)

/-- Adds places to the base sixty, from the last one on, to a sum; the next place has some worth. -/
def sumOfPlaces (sum : Binary64) (worth : Nat) : List Binary64 → Except Error Binary64
  | [] => .ok sum
  | place :: rest =>
    match Binary64.ofNat? worth with
    | some factor => sumOfPlaces (sum.add (place.mul factor)) (60 * worth) rest
    | none => .error .placeTooGreat

/-- The spelling of an infinity without its sign. -/
def infinityWord : List Point := Text.points ".inf".toList

/-- The spelling of the undefined number without its sign. -/
def undefinedWord : List Point := Text.points ".nan".toList

/-- A real without its underscores and in small letters, split at its sign. -/
def realBody (text : List Point) : Except Error (Bool × List Point) :=
  splitSign (Text.lowered (withoutUnderscores text))

/-- Reads a real, in any mixture of capitals. -/
def real (text : List Point) : Except Error Binary64 := do
  let (negative, body) ← realBody text
  let value ←
    if body = infinityWord then pure (.infinite false)
    else if body = undefinedWord then pure .nan
    else match partsBetween (.char ':') body with
      | [number] => decimalReal number
      | places => do
        let places ← places.mapM decimalReal
        sumOfPlaces (.zero false) 1 places.reverse
  return if negative then value.neg else value

/-- Whether a text is the spelling of the undefined number; a text that is read as a numeral may
stand for it too. -/
def isUndefinedWord (text : List Point) : Bool :=
  match realBody text with
  | .ok (_, body) => body == undefinedWord
  | .error _ => false

/-- Reads bytes in Base64. -/
def binary (text : List Point) : Except Error (List Nat) := do
  let text ← valid (Text.chars? text)
  require (text.all (·.toNat < 128))
  valid (Text.Base64.decode? text)

/-- Reads a timestamp as a date or a moment. A line feed at its end is passed over. -/
def timestamp (text : List Point) : Except Error Atom := do
  let text := (Text.chars? text).map fun text =>
    if text.getLast? = some '\n' then text.dropLast else text
  match text.bind Timestamp.ofText? with
  | none => throw .notMoment
  | some ⟨date, none⟩ =>
    date.check.mapError .noSuchMoment
    return .date date
  | some ⟨date, some (time, offset)⟩ =>
    let moment : Moment := ⟨date, time, offset⟩
    moment.check.mapError .noSuchMoment
    return .moment moment

/-- The atom of a text. -/
def textAtom (text : List Point) : Atom :=
  match Text.chars? text with
  | some text => .text (String.ofList text)
  | none => .illFormed text

/-- Reads the text of a scalar with some meaning. -/
def atom (meaning : Meaning) (text : List Point) : Except Error Atom :=
  match meaning with
  | .null => .ok .null
  | .boolean => .boolean <$> boolean text
  | .integer => .integer <$> integer text
  | .real => .real <$> real text
  | .text => .ok (textAtom text)
  | .binary => .bytes <$> binary text
  | .timestamp => timestamp text
  | _ => .error .invalid

end BraceLang.Yaml.Literal
