/-!
# Locations

A location is a line and a column of a file, both counted from one. A line feed starts a line;
every other character is one column wide.
-/

namespace BraceLang

/-- A place in a file. -/
structure Location where
  line : Int
  column : Int
  file : String
  deriving DecidableEq, Repr

namespace Location

/-- The name that a text without a file goes by. -/
def anonymousFile : String := "<string>"

/-- The place of the first character of a file. -/
def start (file : String) : Location := ⟨1, 1, file⟩

/-- The place behind a character. -/
def next (location : Location) (c : Char) : Location :=
  if c = '\n' then ⟨location.line + 1, 1, location.file⟩
  else ⟨location.line, location.column + 1, location.file⟩

/-- The place behind a text. -/
def advance (location : Location) (text : List Char) : Location :=
  text.foldl next location

/-- Passing two texts is passing the one and then the other. -/
theorem advance_append (location : Location) (left right : List Char) :
    location.advance (left ++ right) = (location.advance left).advance right :=
  List.foldl_append

/-- A location as messages show it. -/
def text (location : Location) : String :=
  s!"{location.file}:{location.line}:{location.column}"

end Location

end BraceLang
