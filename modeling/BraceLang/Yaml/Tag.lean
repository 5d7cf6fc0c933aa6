import BraceLang.Text.Utf8
import BraceLang.Yaml.Cursor
import BraceLang.Yaml.Error

/-!
# Names in YAML

How anchors, tags and directives are read from a text.
-/

namespace BraceLang.Yaml

/-- A letter, a digit, a hyphen or an underscore of ASCII. -/
def isNameChar (c : Char) : Bool := c.isAlphanum || c == '-' || c == '_'

/-- Reads the name of an anchor or an alias behind its mark. -/
def anchorName (cursor : Cursor) : Option (String × Cursor) := do
  let name := cursor.ahead isNameChar
  let behind := cursor.skip name.length
  let ends := isBlankOrEnd behind.peek ||
    behind.peek.any (fun c => "?:,]\x7d%@\x60".toList.contains c)
  guard (!name.isEmpty && ends)
  return (String.ofList name, behind)

/-- A character that may stand in a tag as it is. -/
def isTagChar (c : Char) : Bool :=
  c.isAlphanum || "-;/?:@&=+$,_.!~*'()[]".toList.contains c

/-- Reads bytes that are written as percent signs with two hexadecimal digits each. -/
def escapedBytes : List Char → Option (List Nat × List Char)
  | '%' :: high :: low :: rest => do
    guard (Numeral.isDigitOf 16 high && Numeral.isDigitOf 16 low)
    let (bytes, behind) ← escapedBytes rest
    return (Numeral.naturalOf 16 [high, low] :: bytes, behind)
  | '%' :: _ => none
  | rest => some ([], rest)

/-- Reads the text of a tag in so many steps, each of which takes characters that stand for
themselves or bytes that spell some in UTF-8. -/
def tagParts : Nat → Cursor → Option (List Char × Cursor)
  | 0, _ => none
  | steps + 1, cursor =>
    match cursor.ahead isTagChar with
    | [] =>
      if cursor.isAt '%' then do
        let (bytes, _) ← escapedBytes cursor.rest
        let text ← (Text.decodeUtf8 bytes).toOption
        let (more, last) ← tagParts steps (cursor.skip (3 * bytes.length))
        return (text ++ more, last)
      else some ([], cursor)
    | text => do
      let (more, last) ← tagParts steps (cursor.skip text.length)
      return (text ++ more, last)

/-- Reads the text of a tag, which is not empty. -/
def tagText (cursor : Cursor) : Option (String × Cursor) := do
  let (text, behind) ← tagParts (cursor.left + 1) cursor
  guard (!text.isEmpty)
  return (String.ofList text, behind)

/-- Reads a handle: a mark in front of a space, or a name between two marks. -/
def tagHandle (cursor : Cursor) : Option (String × Cursor) := do
  guard (cursor.isAt '!')
  let name := cursor.next.ahead isNameChar
  let behind := cursor.skip (name.length + 1)
  if behind.isAt '!' then return (String.ofList ('!' :: (name ++ ['!'])), behind.next)
  else
    guard (name.isEmpty && behind.isAt ' ')
    return ("!", behind)

/-- Reads a tag: a complete one between angle brackets, a single mark, or a suffix with a handle
in front. -/
def tag (cursor : Cursor) : Option (Option String × String × Cursor) := do
  let result : Option String × String × Cursor ←
    match cursor.peek 1 with
    | some '<' =>
      let (text, behind) ← tagText (cursor.skip 2)
      guard (behind.isAt '>')
      pure (none, text, behind.next)
    | next =>
      if isBlankOrEnd next then pure (none, "!", cursor.next)
      else
        let body := cursor.next.ahead fun c => !(c == ' ' || isBreak c)
        let (handle, behind) ←
          if body.contains '!' then tagHandle cursor else pure ("!", cursor.next)
        let (suffix, behind) ← tagText behind
        pure (some handle, suffix, behind)
  guard (isSpaceOrEnd result.2.2.peek)
  return result

/-- Reads a number, which has at most as many digits as any numeral. -/
def number (cursor : Cursor) : Except Error (Nat × Cursor) := do
  let digits := cursor.ahead Char.isDigit
  require (!digits.isEmpty)
  if Numeral.maxDigits < digits.length then throw (.tooManyDigits digits.length)
  return (Numeral.natural digits, cursor.skip digits.length)

end BraceLang.Yaml
