import BraceLang.Data.Moment
import BraceLang.Number.Numeral

/-!
# Errors of YAML

Most texts that break a rule of YAML are just invalid. What is wrong with the spelling of a scalar
whose tag says what it stands for, or with an escape beyond the last code point, is told apart.
-/

namespace BraceLang.Yaml

/-- Why a text has no data. -/
inductive Error where
  | invalid
  /-- A word that is no truth value. -/
  | notBoolean (word : List Text.Point)
  /-- A number without a digit, where one is wanted to tell its base. -/
  | numberEmpty
  | notInteger (base : Nat) (text : List Text.Point)
  | tooManyDigits (count : Nat)
  | notReal (text : List Text.Point)
  /-- A real with so many places that the worth of a place is beyond all reals. -/
  | placeTooGreat
  | notMoment
  /-- A mapping in place of the text of a moment. -/
  | momentIsMapping
  | noSuchMoment (error : MomentError)
  /-- An escape for a code point beyond the last one. -/
  | codeTooGreat (code : Nat)
  deriving DecidableEq, Repr

namespace Error

/-- The greatest number of a code point that is looked at; the number itself is refused beyond. -/
def maxCode : Nat := Nat.pow 2 31 - 1

/-- The wording of an error. -/
def message : Error → String
  | .invalid => "invalid YAML"
  | .notBoolean word => String.ofList (Text.quotedPoints word)
  | .numberEmpty => "string index out of range"
  | .notInteger base text => Numeral.notIntegerMessage base (Text.quotedPoints text)
  | .tooManyDigits count => (Numeral.Error.tooManyDigits count).message
  | .notReal text => Numeral.notRealMessage (Text.quotedPoints text)
  | .placeTooGreat => "int too large to convert to float"
  | .notMoment => "'NoneType' object has no attribute 'groupdict'"
  | .momentIsMapping => "expected string or bytes-like object, got 'list'"
  | .noSuchMoment error => error.message
  | .codeTooGreat code =>
    if maxCode < code then "Python int too large to convert to C int"
    else "chr() arg not in range(0x110000)"

end Error

/-- What is there, or the error that a text is invalid. -/
def valid {α : Type} : Option α → Except Error α
  | some value => .ok value
  | none => .error .invalid

/-- Refuses a text as invalid unless a condition holds. -/
def require (condition : Bool) : Except Error Unit :=
  if condition then .ok () else .error .invalid

end BraceLang.Yaml
