/-!
# Places in a YAML text

A cursor stands in front of the unread part of a text and knows its line and column.
-/

namespace BraceLang.Yaml

/-- A character that ends a line. -/
def isBreak (c : Char) : Bool :=
  c == '\n' || c == '\u0085' || c == '\u2028' || c == '\u2029'

/-- Whether a place is at a line break or at the end of the text. -/
def isBreakOrEnd : Option Char → Bool
  | none => true
  | some c => isBreak c

/-- Whether a place is at a space, a line break or at the end of the text. -/
def isSpaceOrEnd : Option Char → Bool
  | none => true
  | some c => c == ' ' || isBreak c

/-- Whether a place is at a space, a tab, a line break or at the end of the text. -/
def isBlankOrEnd : Option Char → Bool
  | none => true
  | some c => c == ' ' || c == '\t' || isBreak c

/-- A line break as it counts inside a scalar. -/
def breakText (c : Char) : Char :=
  if c == '\u0085' then '\n' else c

/-- What is unread and how much that is, and on which line and column it begins. -/
structure Cursor where
  rest : List Char
  left : Nat
  line : Nat
  column : Nat
  deriving Repr

namespace Cursor

/-- The place in front of a text. -/
def start (text : List Char) : Cursor := ⟨text, text.length, 0, 0⟩

/-- The character so far ahead. -/
def peek (cursor : Cursor) (ahead : Nat := 0) : Option Char := cursor.rest[ahead]?

/-- Whether the next character is a given one. -/
def isAt (cursor : Cursor) (c : Char) : Bool := cursor.peek == some c

/-- Passes a character. A byte order mark has no width. -/
def next (cursor : Cursor) : Cursor :=
  match cursor.rest with
  | [] => cursor
  | c :: rest =>
    if isBreak c then ⟨rest, cursor.left - 1, cursor.line + 1, 0⟩
    else
      ⟨rest, cursor.left - 1, cursor.line,
        if c == '\uFEFF' then cursor.column else cursor.column + 1⟩

/-- Passes so many characters. -/
def skip (cursor : Cursor) : Nat → Cursor
  | 0 => cursor
  | count + 1 => cursor.next.skip count

/-- The characters ahead that have a property. -/
def ahead (cursor : Cursor) (p : Char → Bool) : List Char := cursor.rest.takeWhile p

/-- Passes the characters that have a property. -/
def skipWhile (cursor : Cursor) (p : Char → Bool) : Cursor :=
  cursor.skip (cursor.ahead p).length

/-- Passes the rest of a line. -/
def skipLine (cursor : Cursor) : Cursor := cursor.skipWhile (!isBreak ·)

/-- Whether three given characters and a blank come next. -/
def isAtMarker (cursor : Cursor) (c : Char) : Bool :=
  cursor.rest.take 3 == [c, c, c] && isBlankOrEnd (cursor.peek 3)

/-- Whether the start or the end of a document comes next, if this is the start of a line. -/
def isAtSeparator (cursor : Cursor) : Bool :=
  cursor.isAtMarker '-' || cursor.isAtMarker '.'

end Cursor

end BraceLang.Yaml
