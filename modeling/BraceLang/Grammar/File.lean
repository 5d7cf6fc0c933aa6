import BraceLang.Grammar.Basic
import BraceLang.Text.Lines
import BraceLang.Text.Utf8

/-!
# Grammar files

A grammar may be read from a file in YAML. What goes wrong with the file itself, with its bytes or
with its YAML is told apart from what is wrong with the grammar in it.

The datum of a text is made by a loader that is given. Nothing is known of it but what it answers.
-/

namespace BraceLang.Grammar

/-- What a file system holds under a path. -/
inductive Stored where
  | file (bytes : List Nat)
  | directory
  | nothing
  /-- Nothing, as the path or a name in it is longer than any may be. -/
  | tooLong
  deriving Repr

/-- What a loader answers where it makes no datum of a text. -/
inductive LoadError where
  /-- The text is invalid, for some reason. -/
  | invalid (reason : String)
  /-- Something else has kept it from it, an error of a certain class. -/
  | unforeseen (errorClass message : String)
  deriving DecidableEq, Repr

/-- Makes data of texts with line feeds only. -/
abbrev Loader := List Char → Except LoadError Datum

/-- Why no grammar could be read from a file. -/
inductive FileError where
  /-- A path with a character in it that no path may hold. -/
  | nullInPath
  | missing (path : String)
  | isDirectory (path : String)
  | nameTooLong (path : String)
  | undecodable (error : Text.Utf8Error)
  | noData (error : LoadError)
  | invalidGrammar (error : Error)
  deriving Repr

/-- The names in a path, without empty and self-referring ones. -/
def namesIn (path : String) : List String :=
  (path.splitOn "/").filter fun name => name != "" && name != "."

/-- The slashes that a path begins with. Two have a meaning of their own, more count as one. -/
def rootOf (path : String) : String :=
  if path.startsWith "//" && !path.startsWith "///" then "//"
  else if path.startsWith "/" then "/"
  else ""

/-- A path without empty and self-referring names. -/
def normalPath (path : String) : String :=
  let normal := rootOf path ++ "/".intercalate (namesIn path)
  if normal.isEmpty then "." else normal

/-- The length in bytes from which on a path is too long. -/
def pathLimit : Nat := 4096

/-- The length in bytes up to which a name in a path is not too long. -/
def nameLimit : Nat := 255

/-- What is stored under a path that starts in an empty directory. -/
def storedInEmptyDirectory (path : String) : Stored :=
  if pathLimit ≤ (normalPath path).utf8ByteSize then .tooLong
  else match (namesIn path).find? (· != "..") with
    | none => .directory
    | some name => if nameLimit < name.utf8ByteSize then .tooLong else .nothing

/-- The wording of an error about a file. -/
def FileError.message (origin : String) : FileError → String
  | .nullInPath => "embedded null byte"
  | .missing path =>
    origin ++ ": cannot read grammar file: [Errno 2] No such file or directory: " ++
      Text.quoted path
  | .isDirectory path =>
    origin ++ ": cannot read grammar file: [Errno 21] Is a directory: " ++ Text.quoted path
  | .nameTooLong path =>
    origin ++ ": cannot read grammar file: [Errno 36] File name too long: " ++ Text.quoted path
  | .undecodable error => error.message
  | .noData (.invalid reason) => origin ++ ": invalid YAML: " ++ reason
  | .noData (.unforeseen _ message) => message
  | .invalidGrammar error => error.message origin

/-- Reads a grammar from the text of a file. -/
def ofText (load : Loader) (room : Nat) (text : List Char) : Except FileError Grammar := do
  let datum ← (load (Text.withLineFeeds text)).mapError .noData
  (ofDatum room datum).mapError .invalidGrammar

/-- Reads a grammar from what is stored under a path. -/
def ofStored (load : Loader) (room : Nat) (path : String) (stored : Stored) :
    Except FileError Grammar :=
  if path.toList.contains '\x00' then .error .nullInPath
  else match stored with
    | .file bytes => do
      let text ← (Text.decodeUtf8 bytes).mapError .undecodable
      ofText load room text
    | .directory => .error (.isDirectory (normalPath path))
    | .nothing => .error (.missing (normalPath path))
    | .tooLong => .error (.nameTooLong (normalPath path))

end BraceLang.Grammar
