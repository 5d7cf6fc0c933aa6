import BraceLang.Yaml.Tag
import BraceLang.Yaml.Token

/-!
# Directives of YAML

A line in front of a document may name the version of YAML or declare a handle for tags; any other
directive is passed over.
-/

namespace BraceLang.Yaml

/-- Reads the two numbers of a version. -/
def versionDirective (cursor : Cursor) : Except Error (Directive × Cursor) := do
  let (major, behind) ← number (cursor.skipWhile (· == ' '))
  require (behind.isAt '.')
  let (_, behind) ← number behind.next
  require (isSpaceOrEnd behind.peek)
  return (.version major, behind)

/-- Reads a handle and what it stands for. -/
def handleDirective (cursor : Cursor) : Option (Directive × Cursor) := do
  let (handle, behind) ← tagHandle (cursor.skipWhile (· == ' '))
  guard (behind.isAt ' ')
  let (expansion, behind) ← tagText (behind.skipWhile (· == ' '))
  guard (isSpaceOrEnd behind.peek)
  return (.tagHandle handle expansion, behind)

/-- Reads a directive up to the end of its line. -/
def directive (cursor : Cursor) : Except Error (Directive × Cursor) := do
  let name := cursor.next.ahead isNameChar
  let behind := cursor.skip (name.length + 1)
  require (!name.isEmpty && isSpaceOrEnd behind.peek)
  let (result, behind) ←
    if name == "YAML".toList then versionDirective behind
    else if name == "TAG".toList then valid (handleDirective behind)
    else pure (Directive.other, behind.skipLine)
  let behind := behind.skipWhile (· == ' ')
  let behind := if behind.isAt '#' then behind.skipLine else behind
  require (isBreakOrEnd behind.peek)
  return (result, behind.next)

end BraceLang.Yaml
