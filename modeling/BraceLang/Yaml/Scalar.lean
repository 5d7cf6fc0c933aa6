import BraceLang.Yaml.Cursor
import BraceLang.Yaml.Error

/-!
# Scalars of YAML

How plain, quoted and block scalars are read from a text. A line break inside a scalar counts as a
space, unless empty lines follow, which count as line breaks instead; block scalars keep their
line breaks if they say so.
-/

namespace BraceLang.Yaml

/-- Folds a line break and the empty lines behind it. -/
def folded (first : Char) (breaks : List Char) : List Char :=
  if first != '\n' then first :: breaks
  else if breaks.isEmpty then [' ']
  else breaks

/-- Reads the spaces and breaks inside a plain scalar after a first line break: the breaks and the
cursor behind them, or nothing if a document ends here. -/
def plainBreaks : Nat → Cursor → Option (List Char × Cursor)
  | 0, cursor => some ([], cursor)
  | fuel + 1, cursor =>
    match cursor.peek with
    | some c =>
      if c == ' ' then plainBreaks fuel cursor.next
      else if isBreak c then
        let after := cursor.next
        if after.isAtSeparator then none
        else (plainBreaks fuel after).map fun (breaks, last) => (breakText c :: breaks, last)
      else some ([], cursor)
    | none => some ([], cursor)

/-- A cursor and whether a simple key may begin there. -/
structure Reached where
  cursor : Cursor
  allowKey : Bool
  deriving Repr

/-- Reads what lies between two parts of a plain scalar. -/
def plainGap (cursor : Cursor) : List Char × Reached :=
  let spaces := cursor.ahead (· == ' ')
  let cursor := cursor.skip spaces.length
  match cursor.peek with
  | some c =>
    if isBreak c then
      let after := cursor.next
      if after.isAtSeparator then ([], ⟨after, true⟩)
      else match plainBreaks after.left after with
        | some (breaks, last) => (folded (breakText c) breaks, ⟨last, true⟩)
        | none => ([], ⟨after.skipWhile fun c => c == ' ' || isBreak c, true⟩)
    else (spaces, ⟨cursor, false⟩)
  | none => (spaces, ⟨cursor, false⟩)

/-- The number of characters of a plain scalar in the rest of a line. -/
def plainLength (flow : Bool) : List Char → Nat
  | [] => 0
  | c :: rest =>
    if c == ' ' || c == '\t' || isBreak c then 0
    else if c == ':' && (isBlankOrEnd rest.head? ||
        flow && rest.head?.any (fun next => ",[]\x7b\x7d".toList.contains next)) then 0
    else if flow && ",?[]\x7b\x7d".toList.contains c then 0
    else plainLength flow rest + 1

/-- Reads a plain scalar whose lines are indented by at least `indent`; `gap` is what lies in
front. -/
def plainFrom (flow : Bool) (indent : Int) : Nat → List Char → Reached → List Char × Reached
  | 0, _, reached => ([], reached)
  | fuel + 1, gap, reached =>
    let cursor := reached.cursor
    let length := if cursor.isAt '#' then 0 else plainLength flow cursor.rest
    if length = 0 then ([], reached)
    else
      let text := cursor.rest.take length
      let (spaces, behind) := plainGap (cursor.skip length)
      if spaces.isEmpty || behind.cursor.isAt '#' ||
          !flow && decide ((behind.cursor.column : Int) < indent) then
        (gap ++ text, behind)
      else
        let (more, last) := plainFrom flow indent fuel spaces behind
        (gap ++ text ++ more, last)

/-- Reads a plain scalar. -/
def plainScalar (flow : Bool) (indent : Int) (cursor : Cursor) : List Char × Reached :=
  plainFrom flow indent cursor.left [] ⟨cursor, false⟩

/-- The characters of the one-letter escapes. -/
def simpleEscape? : Char → Option Char
  | '0' => some '\x00'
  | 'a' => some '\x07'
  | 'b' => some '\x08'
  | 't' | '\t' => some '\t'
  | 'n' => some '\n'
  | 'v' => some '\x0b'
  | 'f' => some '\x0c'
  | 'r' => some '\r'
  | 'e' => some '\x1b'
  | ' ' => some ' '
  | '"' => some '"'
  | '\\' => some '\\'
  | '/' => some '/'
  | 'N' => some '\u0085'
  | '_' => some '\u00a0'
  | 'L' => some '\u2028'
  | 'P' => some '\u2029'
  | _ => none

/-- How many digits the escape of a letter has. -/
def escapeDigits? : Char → Option Nat
  | 'x' => some 2
  | 'u' => some 4
  | 'U' => some 8
  | _ => none

/-- Reads the blank lines inside a quoted scalar; a document may not end here. -/
def quotedBreaks : Nat → Cursor → Option (List Char × Cursor)
  | 0, cursor => some ([], cursor)
  | fuel + 1, cursor =>
    if cursor.isAtSeparator then none
    else
      let cursor := cursor.skipWhile fun c => c == ' ' || c == '\t'
      match cursor.peek with
      | some c =>
        if isBreak c then
          (quotedBreaks fuel cursor.next).map fun (breaks, last) => (breakText c :: breaks, last)
        else some ([], cursor)
      | none => some ([], cursor)

/-- The code point that hexadecimal digits stand for. -/
def escapedPoint (digits : List Char) : Except Error Text.Point := do
  require (digits.all (Numeral.isDigitOf 16))
  let code := Numeral.naturalOf 16 digits
  match Text.Point.ofCode? code with
  | some point => return point
  | none => throw (.codeTooGreat code)

/-- Reads an escape behind its backslash. -/
def quotedEscape (cursor : Cursor) : Except Error (List Text.Point × Cursor) := do
  let c ← valid cursor.peek
  match simpleEscape? c, escapeDigits? c with
  | some value, _ => return ([.char value], cursor.next)
  | none, some count =>
    let digits := cursor.next.rest.take count
    require (digits.length == count)
    return ([← escapedPoint digits], cursor.next.skip count)
  | none, none =>
    require (isBreak c)
    let (breaks, behind) ← valid (quotedBreaks cursor.left cursor.next)
    return (Text.points breaks, behind)

/-- Whether a character inside a quoted scalar stands for itself wherever it is. -/
def isOrdinary (quote c : Char) : Bool :=
  !(c == quote || c == '\\' || c == ' ' || c == '\t' || isBreak c)

/-- Reads a quoted scalar behind its opening quote. -/
def quotedFrom (quote : Char) : Nat → Cursor → Except Error (List Text.Point × Cursor)
  | 0, _ => .error .invalid
  | fuel + 1, cursor => do
    let c ← valid cursor.peek
    if c == '\'' && quote == c && cursor.peek 1 == some c then
      let (more, last) ← quotedFrom quote fuel (cursor.skip 2)
      return (.char c :: more, last)
    else if c == quote then
      return ([], cursor.next)
    else if c == '\\' && quote == '"' then
      let (text, behind) ← quotedEscape cursor.next
      let (more, last) ← quotedFrom quote fuel behind
      return (text ++ more, last)
    else if c == ' ' || c == '\t' || isBreak c then
      let spaces := cursor.ahead fun c => c == ' ' || c == '\t'
      let behind := cursor.skip spaces.length
      let c ← valid behind.peek
      if isBreak c then
        let (breaks, after) ← valid (quotedBreaks behind.left behind.next)
        let (more, last) ← quotedFrom quote fuel after
        return (Text.points (folded (breakText c) breaks) ++ more, last)
      else
        let (more, last) ← quotedFrom quote fuel behind
        return (Text.points spaces ++ more, last)
    else
      let text := c :: cursor.next.ahead (isOrdinary quote)
      let (more, last) ← quotedFrom quote fuel (cursor.skip text.length)
      return (Text.points text ++ more, last)

/-- Reads a quoted scalar. -/
def quotedScalar (quote : Char) (cursor : Cursor) : Except Error (List Text.Point × Cursor) :=
  quotedFrom quote (cursor.left + 1) cursor.next

/-- What becomes of the line breaks at the end of a block scalar. -/
inductive Chomping where
  | strip
  | clip
  | keep
  deriving DecidableEq, Repr

/-- Reads a sign that tells how to chomp. -/
def chomping? : Option Char → Option Chomping
  | some '+' => some .keep
  | some '-' => some .strip
  | _ => none

/-- Reads a digit that tells how deep a block scalar is indented. -/
def increment? : Option Char → Option Nat
  | some c => if '0' ≤ c && c ≤ '9' then some (c.toNat - 48) else none
  | none => none

/-- Reads the indicators behind the first character of a block scalar, in either order. -/
def blockIndicators (cursor : Cursor) : Option (Chomping × Option Nat × Cursor) := do
  let result : Chomping × Option Nat × Cursor :=
    match chomping? cursor.peek with
    | some chomping =>
      match increment? (cursor.peek 1) with
      | some increment => (chomping, some increment, cursor.skip 2)
      | none => (chomping, none, cursor.next)
    | none =>
      match increment? cursor.peek with
      | some increment =>
        match chomping? (cursor.peek 1) with
        | some chomping => (chomping, some increment, cursor.skip 2)
        | none => (.clip, some increment, cursor.next)
      | none => (.clip, none, cursor)
  guard (result.2.1 ≠ some 0 ∧ isSpaceOrEnd result.2.2.peek)
  return result

/-- Passes the rest of the line that begins a block scalar: spaces and a comment. -/
def blockHeaderEnd (cursor : Cursor) : Option Cursor := do
  let cursor := cursor.skipWhile (· == ' ')
  let cursor := if cursor.isAt '#' then cursor.skipLine else cursor
  guard (isBreakOrEnd cursor.peek)
  return cursor.next

/-- Reads the spaces and breaks in front of a block scalar: its breaks and its greatest column. -/
def blockIndentation : Nat → Cursor → Nat → List Char × Nat × Cursor
  | 0, cursor, deepest => ([], deepest, cursor)
  | fuel + 1, cursor, deepest =>
    match cursor.peek with
    | some c =>
      if c == ' ' then
        let after := cursor.next
        blockIndentation fuel after (max deepest after.column)
      else if isBreak c then
        let (breaks, result) := blockIndentation fuel cursor.next deepest
        (breakText c :: breaks, result)
      else ([], deepest, cursor)
    | none => ([], deepest, cursor)

/-- Passes spaces up to a column. -/
def indentTo (column : Nat) (cursor : Cursor) : Cursor :=
  cursor.skip (min (cursor.ahead (· == ' ')).length (column - cursor.column))

/-- Reads the empty lines in front of a line of a block scalar. -/
def blockBreaks (indent : Nat) : Nat → Cursor → List Char × Cursor
  | 0, cursor => ([], cursor)
  | fuel + 1, cursor =>
    let cursor := indentTo indent cursor
    match cursor.peek with
    | some c =>
      if isBreak c then
        let (breaks, last) := blockBreaks indent fuel cursor.next
        (breakText c :: breaks, last)
      else ([], cursor)
    | none => ([], cursor)

/-- Reads the lines of a block scalar: the text, the last line break, the breaks behind it and the
cursor. -/
def blockLines (fold : Bool) (indent : Nat) :
    Nat → List Char → Cursor → List Char × List Char × List Char × Cursor
  | 0, breaks, cursor => ([], [], breaks, cursor)
  | fuel + 1, breaks, cursor =>
    if cursor.column = indent ∧ cursor.peek ≠ none then
      let isMore := fun place => place == some ' ' || place == some '\t'
      let line := cursor.ahead (!isBreak ·)
      let behind := cursor.skip line.length
      let ending := (behind.peek.map breakText).toList
      let (empty, after) := blockBreaks indent (behind.left + 1) behind.next
      if after.column = indent ∧ after.peek ≠ none then
        let joint :=
          if fold && ending == ['\n'] && !isMore cursor.peek && !isMore after.peek then
            if empty.isEmpty then [' '] else []
          else ending
        let (more, rest) := blockLines fold indent fuel empty after
        (breaks ++ line ++ joint ++ more, rest)
      else (breaks ++ line, ending, empty, after)
    else ([], [], breaks, cursor)

/-- Reads a block scalar inside a block at some indentation. -/
def blockScalar (fold : Bool) (outer : Int) (cursor : Cursor) : Option (List Char × Cursor) := do
  let (chomping, increment, cursor) ← blockIndicators cursor.next
  let cursor ← blockHeaderEnd cursor
  let least := (max (outer + 1) 1).toNat
  let (indent, breaks, cursor) := match increment with
    | some increment =>
      let indent := least + increment - 1
      let (breaks, cursor) := blockBreaks indent (cursor.left + 1) cursor
      (indent, breaks, cursor)
    | none =>
      let (breaks, deepest, cursor) := blockIndentation cursor.left cursor 0
      (max least deepest, breaks, cursor)
  let (text, ending, trailing, cursor) :=
    blockLines fold indent (cursor.left + 1) breaks cursor
  let tail := match chomping with
    | .strip => []
    | .clip => ending
    | .keep => ending ++ trailing
  return (text ++ tail, cursor)

end BraceLang.Yaml
