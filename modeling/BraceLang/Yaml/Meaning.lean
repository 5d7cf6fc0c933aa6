import BraceLang.Number.Numeral
import BraceLang.Yaml.Timestamp

/-!
# The meanings of YAML nodes

A tag says what a node stands for. A plain scalar without a tag is a truth value, a number, a
timestamp, a null, a mark or a text, by its spelling. Numbers may have underscores in them, and
places to the base sixty with colons between them.
-/

namespace BraceLang.Yaml

/-- The parts of a list between the places where a mark stands. -/
def partsBetween {α : Type} [DecidableEq α] (mark : α) : List α → List (List α)
  | [] => [[]]
  | a :: rest =>
    match partsBetween mark rest with
    | [] => [[a]]
    | part :: more => if a = mark then [] :: part :: more else (a :: part) :: more

/-- What a node stands for. -/
inductive Meaning where
  | null
  | boolean
  | integer
  | real
  | text
  | binary
  | timestamp
  | sequence
  | mapping
  | set
  /-- A sequence of mappings of one pair each, as a list of pairs. -/
  | pairs
  /-- The key that merges other mappings into one. -/
  | merge
  /-- The key that marks the value of a mapping. -/
  | value
  | other
  deriving DecidableEq, Repr

namespace Meaning

/-- The meaning that a tag names. -/
def ofTag (tag : String) : Meaning :=
  match tag with
  | "tag:yaml.org,2002:null" => .null
  | "tag:yaml.org,2002:bool" => .boolean
  | "tag:yaml.org,2002:int" => .integer
  | "tag:yaml.org,2002:float" => .real
  | "tag:yaml.org,2002:str" => .text
  | "tag:yaml.org,2002:binary" => .binary
  | "tag:yaml.org,2002:timestamp" => .timestamp
  | "tag:yaml.org,2002:seq" => .sequence
  | "tag:yaml.org,2002:map" => .mapping
  | "tag:yaml.org,2002:set" => .set
  | "tag:yaml.org,2002:omap" | "tag:yaml.org,2002:pairs" => .pairs
  | "tag:yaml.org,2002:merge" => .merge
  | "tag:yaml.org,2002:value" => .value
  | _ => .other

/-- The spellings of truth values. -/
def booleanWords : List String :=
  ["yes", "Yes", "YES", "no", "No", "NO", "true", "True", "TRUE", "false", "False", "FALSE",
   "on", "On", "ON", "off", "Off", "OFF"]

/-- The spellings of null. -/
def nullWords : List String := ["", "~", "null", "Null", "NULL"]

/-- Marks that have no meaning of their own. -/
def bareMarks : List String := ["!", "&", "*"]

/-- A digit or an underscore. -/
def isPlace (c : Char) : Bool := c.isDigit || c == '_'

/-- A row of digits and underscores that begins with a digit. -/
def isCount (text : List Char) : Bool :=
  text.head?.any Char.isDigit && text.all isPlace

/-- One place to the base sixty: a digit, or two of which the first is below six. -/
def isSixty : List Char → Bool
  | [a] => a.isDigit
  | [a, b] => '0' ≤ a && a ≤ '5' && b.isDigit
  | _ => false

/-- The text behind a sign, if there is one. -/
def withoutSign : List Char → List Char
  | '+' :: rest | '-' :: rest => rest
  | rest => rest

/-- The spellings of integers without their sign. -/
def isInteger (text : List Char) : Bool :=
  match text with
  | '0' :: 'b' :: rest => !rest.isEmpty && rest.all fun c => c == '0' || c == '1' || c == '_'
  | '0' :: 'x' :: rest =>
    !rest.isEmpty && rest.all fun c => Numeral.isDigitOf 16 c || c == '_'
  | ['0'] => true
  | '0' :: rest => rest.all fun c => Numeral.isDigitOf 8 c || c == '_'
  | text =>
    match partsBetween ':' text with
    | first :: places => isCount first && places.all isSixty
    | [] => false

/-- The exponent of a real: nothing, or the letter `e`, a sign and digits. -/
def isExponent : List Char → Bool
  | [] => true
  | letter :: sign :: digits =>
    (letter == 'e' || letter == 'E') && (sign == '-' || sign == '+') && !digits.isEmpty &&
      digits.all Char.isDigit
  | _ => false

/-- The spellings of reals. -/
def isReal (text : List Char) : Bool :=
  let body := withoutSign text
  if [".inf", ".Inf", ".INF"].contains (String.ofList body) then true
  else if [".nan", ".NaN", ".NAN"].contains (String.ofList text) then true
  else match body.span (· != '.') with
    | (whole, '.' :: rest) =>
      let fraction := rest.takeWhile isPlace
      let exponent := rest.dropWhile isPlace
      if whole.isEmpty then body == text && isCount fraction && isExponent exponent
      else match partsBetween ':' whole with
        | [count] => isCount count && isExponent exponent
        | first :: places => isCount first && places.all isSixty && exponent.isEmpty
        | [] => false
    | _ => false

/-- What a text without a line feed at its end stands for by its spelling. -/
def ofLine (text : List Char) : Meaning :=
  let word := String.ofList text
  if booleanWords.contains word then .boolean
  else if isReal text then .real
  else if isInteger (withoutSign text) then .integer
  else if word == "<<" then .merge
  else if nullWords.contains word then .null
  else if Timestamp.isPlain text then .timestamp
  else if word == "=" then .value
  else if bareMarks.contains word then .other
  else .text

/-- What a text stands for by its spelling. A line feed at its end is passed over, but alone it is
a text. -/
def ofSpelling (text : List Text.Point) : Meaning :=
  match Text.chars? text with
  | none => .text
  | some ['\n'] => .text
  | some text => ofLine (if text.getLast? = some '\n' then text.dropLast else text)

end Meaning

end BraceLang.Yaml
