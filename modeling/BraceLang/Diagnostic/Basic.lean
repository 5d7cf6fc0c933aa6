import BraceLang.Location

/-!
# Diagnostics

A diagnostic tells what is wrong with a program and where; it may carry the line of the program
that it is about and a pointer to a column of it.
-/

namespace BraceLang

/-- What a diagnostic is about. -/
inductive DiagnosticKind where
  | unterminatedString
  | invalidCharacter
  | unterminatedComment
  | unexpectedToken
  deriving DecidableEq, Repr

namespace DiagnosticKind

/-- The name of a kind. -/
def name : DiagnosticKind → String
  | .unterminatedString => "UnterminatedString"
  | .invalidCharacter => "InvalidCharacter"
  | .unterminatedComment => "UnterminatedComment"
  | .unexpectedToken => "UnexpectedToken"

/-- All kinds. -/
def all : List DiagnosticKind :=
  [.unterminatedString, .invalidCharacter, .unterminatedComment, .unexpectedToken]

/-- The kind of a name. -/
def ofName? (name : String) : Option DiagnosticKind := all.find? (·.name == name)

/-- A kind is found by its name. -/
theorem ofName?_name (kind : DiagnosticKind) : ofName? kind.name = some kind := by
  cases kind <;> decide

/-- Lexical faults end the reading of the source; the others do not end the parsing. -/
def isLexical (kind : DiagnosticKind) : Bool := kind != .unexpectedToken

end DiagnosticKind

/-- A message about a program. -/
structure Diagnostic where
  kind : DiagnosticKind
  message : String
  location : Option Location
  snippet : String
  pointer : String
  deriving DecidableEq, Repr

namespace Diagnostic

/-- A diagnostic on one line. -/
def text (diagnostic : Diagnostic) : String :=
  let place := match diagnostic.location with
    | some location => location.text ++ ": "
    | none => ""
  place ++ diagnostic.kind.name ++ ": " ++ diagnostic.message

/-- A diagnostic with the line that it is about and the pointer below, as far as it has them. -/
def render (diagnostic : Diagnostic) : String :=
  "\n".intercalate <|
    if diagnostic.snippet.isEmpty then [diagnostic.text]
    else if diagnostic.pointer.isEmpty then [diagnostic.text, diagnostic.snippet]
    else [diagnostic.text, diagnostic.snippet, diagnostic.pointer]

end Diagnostic

end BraceLang
