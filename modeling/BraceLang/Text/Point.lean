import BraceLang.Unicode.Cased
import BraceLang.Unicode.Lowercase

/-!
# Texts of code points

An escape in a text may name a surrogate, which is a code point but no character. A text that may
hold surrogates is a list of points.
-/

namespace BraceLang.Text

/-- A code point. -/
inductive Point where
  | char (c : Char)
  | surrogate (code : Nat)
  deriving DecidableEq, Repr

/-- The points of a text. -/
def points (text : List Char) : List Point := text.map .char

namespace Point

/-- The character of a point, if it is one. -/
def char? : Point → Option Char
  | .char c => some c
  | .surrogate _ => none

/-- The point of a number; code points lie below 0x110000. -/
def ofCode? (code : Nat) : Option Point :=
  if code.isValidChar then some (.char (Char.ofNat code))
  else if code < 0x110000 then some (.surrogate code)
  else none

/-- Whether a point is a letter that has a case. -/
def isCased (point : Point) : Bool := point.char?.any Unicode.isCased

/-- Whether a point is passed over when the letter next to another one is looked for. -/
def isPassed (point : Point) : Bool := point.char?.any Unicode.isPassed

end Point

/-- The characters of a text that holds no surrogate. -/
def chars? (text : List Point) : Option (List Char) := text.mapM Point.char?

/-- A text without surrogates has its characters. -/
theorem chars?_points (text : List Char) : chars? (points text) = some text := by
  unfold chars? points
  induction text with
  | nil => rfl
  | cons c rest ih => simp [List.mapM_cons, Point.char?, ih]

/-- A text as characters: a pair of surrogates is the character that it stands for, a lone one the
replacement character. -/
def joined : List Point → List Char
  | [] => []
  | .char c :: rest => c :: joined rest
  | .surrogate high :: .surrogate low :: rest =>
    if high < 0xDC00 ∧ 0xDC00 ≤ low then
      Char.ofNat (0x10000 + 0x400 * (high - 0xD800) + (low - 0xDC00)) :: joined rest
    else '\uFFFD' :: joined (.surrogate low :: rest)
  | .surrogate _ :: rest => '\uFFFD' :: joined rest

/-- Whether the first letter of a text has a case. -/
def meetsCase (text : List Point) : Bool :=
  ((text.dropWhile Point.isPassed).head?).any Point.isCased

/-- The small form of a point between others. A capital sigma at the end of a word has a form of
its own, and the capital i with a dot keeps its dot as a mark. -/
def loweredPoint (before : List Point) (point : Point) (behind : List Point) : List Point :=
  match point with
  | .char c =>
    if c = 'Σ' ∧ meetsCase before ∧ ¬ meetsCase behind then [.char 'ς']
    else if c = 'İ' then [.char 'i', .char '\u0307']
    else [.char (Unicode.smallForm c)]
  | .surrogate _ => [point]

/-- A text in small letters, given what stands before it in reverse. -/
def loweredAfter : List Point → List Point → List Point
  | _, [] => []
  | before, point :: rest =>
    loweredPoint before point rest ++ loweredAfter (point :: before) rest

/-- A text in small letters. -/
def lowered (text : List Point) : List Point := loweredAfter [] text

end BraceLang.Text
