import BraceLang.Yaml.Directive
import BraceLang.Yaml.Scalar

/-!
# Reading the tokens of YAML

The reading remembers how deep the open blocks are indented and where a key may have begun on the
current line. A colon turns what began there into a key: the tokens for the key, and for the
mapping if it is the first one of a block, go in front of it. Tokens behind a place where a key may
have begun are not settled yet; where the reading fails, only the settled ones count.
-/

namespace BraceLang.Yaml

/-- A place where a key may have begun: the number of tokens in front of it and its place. One
that is required has to be a key, as nothing else may stand there. -/
structure PossibleKey where
  level : Nat
  token : Nat
  required : Bool
  left : Nat
  line : Nat
  column : Nat
  deriving Repr

/-- Whether a key that may have begun at a place cannot go on to a cursor: it has to stay on one
line, and has a greatest length. -/
def PossibleKey.isStale (key : PossibleKey) (cursor : Cursor) : Bool :=
  key.line != cursor.line || decide (1024 < key.left - cursor.left)

/-- The state of the reading. -/
structure Reading where
  cursor : Cursor
  tokens : Array Token
  /-- The column of the innermost block; minus one outside all blocks. -/
  indent : Int
  /-- The columns of the blocks around it. -/
  outer : List Int
  /-- How many brackets and braces are open. -/
  flow : Nat
  allowKey : Bool
  keys : List PossibleKey
  deriving Repr

namespace Reading

/-- The state in front of a text. A byte order mark at its start is passed. -/
def start (text : List Char) : Reading :=
  let cursor := Cursor.start text
  ⟨if cursor.isAt '\uFEFF' then cursor.next else cursor, #[], -1, [], 0, true, []⟩

/-- Appends a token. -/
def add (reading : Reading) (token : Token) : Reading :=
  { reading with tokens := reading.tokens.push token }

/-- Appends a token and goes on at a cursor. -/
def addAt (reading : Reading) (token : Token) (cursor : Cursor) : Reading :=
  { reading.add token with cursor }

/-- Inserts a token in front of those from a place on. -/
def insert (reading : Reading) (place : Nat) (token : Token) : Reading :=
  { reading with tokens := reading.tokens.insertIdxIfInBounds place token }

/-- The tokens in front of the first place where a key may have begun. -/
def settled (reading : Reading) : List Token :=
  let pending := reading.keys.filter (!·.isStale reading.cursor)
  let count := (pending.map PossibleKey.token).foldl min reading.tokens.size
  (reading.tokens.extract 0 count).toList

/-- Forgets the key that may have begun on the current level, unless it is required. -/
def dropKey (reading : Reading) : Except Error Reading := do
  require (!reading.keys.any fun key => key.level == reading.flow && key.required)
  return { reading with keys := reading.keys.filter (·.level != reading.flow) }

/-- Notes that a key may begin here. -/
def noteKey (reading : Reading) : Except Error Reading :=
  if reading.allowKey then do
    let cursor := reading.cursor
    let required := reading.flow == 0 && reading.indent == cursor.column
    let key : PossibleKey :=
      ⟨reading.flow, reading.tokens.size, required, cursor.left, cursor.line, cursor.column⟩
    let reading ← reading.dropKey
    return { reading with keys := key :: reading.keys }
  else .ok reading

/-- Forgets the keys that may have begun on another line or too far back. -/
def dropStaleKeys (reading : Reading) : Except Error Reading := do
  require (!reading.keys.any fun key => key.isStale reading.cursor && key.required)
  return { reading with keys := reading.keys.filter (!·.isStale reading.cursor) }

/-- Closes the blocks that are indented deeper than a column. -/
def closeBlocks (column : Int) : List Int → Reading → Reading
  | [], reading => reading
  | outer :: rest, reading =>
    if column < reading.indent then
      closeBlocks column rest { reading.add .blockEnd with indent := outer, outer := rest }
    else reading

/-- Closes the blocks that are indented deeper than a column, outside brackets and braces. -/
def unwind (reading : Reading) (column : Int) : Reading :=
  if reading.flow = 0 then closeBlocks column reading.outer reading else reading

/-- Opens a block at a column unless one is open there: inserts its token. -/
def openBlock (reading : Reading) (column place : Nat) (token : Token) : Reading :=
  if reading.flow = 0 ∧ reading.indent < column then
    { reading.insert place token with indent := column, outer := reading.indent :: reading.outer }
  else reading

/-- Passes spaces, comments and line breaks. Outside brackets and braces a key may begin on each
new line. -/
def skipGap : Nat → Reading → Reading
  | 0, reading => reading
  | fuel + 1, reading =>
    let cursor := reading.cursor.skipWhile (· == ' ')
    let cursor := if cursor.isAt '#' then cursor.skipLine else cursor
    match cursor.peek with
    | some c =>
      if isBreak c then
        skipGap fuel
          { reading with cursor := cursor.next, allowKey := reading.allowKey || reading.flow == 0 }
      else { reading with cursor }
    | none => { reading with cursor }

/-- Reads the mark that starts or ends a document. -/
def separator (reading : Reading) (token : Token) : Except Error Reading := do
  let reading ← (reading.unwind (-1)).dropKey
  return { reading.addAt token (reading.cursor.skip 3) with allowKey := false }

/-- Reads a directive. -/
def directiveLine (reading : Reading) : Except Error Reading := do
  let reading ← (reading.unwind (-1)).dropKey
  let (directive, cursor) ← directive reading.cursor
  return { reading.addAt (.directive directive) cursor with allowKey := false }

/-- Reads an opening bracket or brace. -/
def flowStart (reading : Reading) (token : Token) : Except Error Reading := do
  let reading ← reading.noteKey
  return { reading.addAt token reading.cursor.next with
    flow := reading.flow + 1, allowKey := true }

/-- Reads a closing bracket or brace; one has to be open. -/
def flowEnd (reading : Reading) (token : Token) : Except Error Reading := do
  require (reading.flow != 0)
  let reading ← reading.dropKey
  return { reading.addAt token reading.cursor.next with
    flow := reading.flow - 1, allowKey := false }

/-- Reads a comma inside brackets or braces, or where there are none. -/
def flowComma (reading : Reading) : Except Error Reading := do
  let reading ← { reading with allowKey := true }.dropKey
  return reading.addAt .flowEntry reading.cursor.next

/-- Reads the hyphen of an entry. -/
def blockHyphen (reading : Reading) : Except Error Reading := do
  require (reading.allowKey || reading.flow != 0)
  let reading := reading.openBlock reading.cursor.column reading.tokens.size .blockSequence
  let reading ← { reading with allowKey := true }.dropKey
  return reading.addAt .blockEntry reading.cursor.next

/-- Reads the question mark of a key. -/
def keyMark (reading : Reading) : Except Error Reading := do
  require (reading.allowKey || reading.flow != 0)
  let reading := reading.openBlock reading.cursor.column reading.tokens.size .blockMapping
  let reading ← { reading with allowKey := reading.flow == 0 }.dropKey
  return reading.addAt .key reading.cursor.next

/-- Reads the colon of a value, and makes a key of what may be one. -/
def valueMark (reading : Reading) : Except Error Reading := do
  match reading.keys.find? (·.level == reading.flow) with
  | some key =>
    let reading :=
      { reading.insert key.token .key with
        keys := reading.keys.filter (·.level != reading.flow)
        allowKey := false }
    let reading := reading.openBlock key.column key.token .blockMapping
    return reading.addAt .value reading.cursor.next
  | none =>
    require (reading.allowKey || reading.flow != 0)
    let reading := reading.openBlock reading.cursor.column reading.tokens.size .blockMapping
    return { reading.addAt .value reading.cursor.next with allowKey := reading.flow == 0 }

/-- Reads something that may be a key: its token and the cursor behind it. -/
def item (reading : Reading) (read : Cursor → Except Error (Token × Cursor)) :
    Except Error Reading := do
  let reading ← reading.noteKey
  let (token, cursor) ← read reading.cursor
  return { reading.addAt token cursor with allowKey := false }

/-- Reads a plain scalar. A key may begin behind it if it ends at a line break. -/
def plain (reading : Reading) : Except Error Reading := do
  let reading ← reading.noteKey
  let (text, reached) := plainScalar (reading.flow != 0) (reading.indent + 1) reading.cursor
  return { reading.addAt (.scalar (Text.points text) true) reached.cursor with
    allowKey := reached.allowKey }

/-- Reads a block scalar. -/
def block (reading : Reading) (fold : Bool) : Except Error Reading := do
  let reading ← { reading with allowKey := true }.dropKey
  let (text, cursor) ← valid (blockScalar fold reading.indent reading.cursor)
  return reading.addAt (.scalar (Text.points text) false) cursor

/-- Reads an anchor or an alias behind its mark. -/
def nameToken (token : String → Token) (cursor : Cursor) : Except Error (Token × Cursor) := do
  let (name, behind) ← valid (anchorName cursor.next)
  return (token name, behind)

/-- Reads a tag. -/
def tagToken (cursor : Cursor) : Except Error (Token × Cursor) := do
  let (handle, suffix, behind) ← valid (tag cursor)
  return (.tag handle suffix, behind)

/-- Reads a quoted scalar. -/
def quotedToken (quote : Char) (cursor : Cursor) : Except Error (Token × Cursor) := do
  let (text, behind) ← quotedScalar quote cursor
  return (.scalar text false, behind)

/-- Whether a character may begin a plain scalar, given the one behind it. -/
def beginsPlain (flow : Bool) (c : Char) (second : Option Char) : Bool :=
  !(isBlankOrEnd (some c) || "-?:,[]\x7b\x7d#&*!|>'\"%@\x60".toList.contains c) ||
    (!isBlankOrEnd second && (c == '-' || (!flow && (c == '?' || c == ':'))))

/-- Reads the next token, which begins with a character. -/
def token (reading : Reading) (c : Char) : Except Error Reading :=
  let cursor := reading.cursor
  let flow := reading.flow != 0
  let isBlankBehind := isBlankOrEnd (cursor.peek 1)
  if c == '%' && cursor.column == 0 then reading.directiveLine
  else if cursor.column == 0 && cursor.isAtMarker '-' then reading.separator .documentStart
  else if cursor.column == 0 && cursor.isAtMarker '.' then reading.separator .documentEnd
  else if c == '[' then reading.flowStart .flowSequence
  else if c == '\x7b' then reading.flowStart .flowMapping
  else if c == ']' then reading.flowEnd .flowSequenceEnd
  else if c == '\x7d' then reading.flowEnd .flowMappingEnd
  else if c == ',' then reading.flowComma
  else if c == '-' && isBlankBehind then reading.blockHyphen
  else if c == '?' && (flow || isBlankBehind) then reading.keyMark
  else if c == ':' && (flow || isBlankBehind) then reading.valueMark
  else if c == '*' then reading.item (nameToken .alias)
  else if c == '&' then reading.item (nameToken .anchor)
  else if c == '!' then reading.item tagToken
  else if (c == '|' || c == '>') && !flow then reading.block (c == '>')
  else if c == '\'' || c == '"' then reading.item (quotedToken c)
  else if beginsPlain flow c (cursor.peek 1) then reading.plain
  else .error .invalid

/-- Reads up to the next token and that token. At the end of the text all blocks are closed, and
nothing is left to read. -/
def step (fuel : Nat) (reading : Reading) : Except Error (Reading × Bool) := do
  let reading ← (reading.skipGap fuel).dropStaleKeys
  let reading := reading.unwind reading.cursor.column
  match reading.cursor.peek with
  | none =>
    let reading ← (reading.unwind (-1)).dropKey
    return (reading, true)
  | some c =>
    let reading ← reading.token c
    return (reading, false)

/-- Reads at most so many tokens, up to the end of the text or a fault. -/
def run : Nat → Reading → List Token
  | 0, reading => reading.tokens.toList
  | fuel + 1, reading =>
    match reading.step (fuel + 1) with
    | .error error => reading.settled ++ [.fault error]
    | .ok (reading, true) => reading.tokens.toList
    | .ok (reading, false) => run fuel reading

end Reading

/-- A character that may stand in a YAML text. -/
def isTextChar (c : Char) : Bool :=
  let code := c.toNat
  code == 9 || code == 10 || code == 13 || (32 ≤ code && code ≤ 126) || code == 0x85 ||
    (0xA0 ≤ code && code ≤ 0xD7FF) || (0xE000 ≤ code && code ≤ 0xFFFD) || 0x10000 ≤ code

/-- The tokens of a text with line feeds only. -/
def tokens (text : List Char) : List Token :=
  if text.all isTextChar then Reading.run (text.length + 1) (Reading.start text)
  else [.fault .invalid]

end BraceLang.Yaml
