import BraceLang.Program.Basic

/-!
# Parsers

A parser reads lexemes from the front of what is unread. It may report complaints on the way; when
it fails, the last report is the reason. Places in the input are told by the number of lexemes that
are unread there, so a parser sees nothing but lexemes and does not know where they stand.

A numeral that cannot be read stops everything and leaves no reply but itself. So would a repetition
that does not come to an end. Whatever carries parsers out by calls inside one another may run out
of room for them; a parser by itself does not.
-/

namespace BraceLang

/-- A complaint and the number of lexemes that are unread where it applies. -/
structure Report where
  left : Nat
  complaint : Complaint
  deriving DecidableEq, Repr

/-- What stops the parsing of an input for good. -/
inductive Halt where
  /-- A numeral that cannot be read. -/
  | unreadable (error : Numeral.Error)
  /-- A repetition that would go round more often than there are lexemes to pass. -/
  | endless
  /-- A call for which there is no room behind those that are open. -/
  | exhausted
  deriving DecidableEq, Repr

/-- What a parser makes of an input. -/
inductive Reply (α : Type) where
  /-- A value, what is unread behind it, and what was reported. -/
  | done (value : α) (unread : List Lexeme) (reports : List Report)
  /-- The report of the failure, what is unread behind it, and what was reported before. -/
  | failed (report : Report) (unread : List Lexeme) (reports : List Report)
  /-- Nothing but the reason to stop. -/
  | stopped (halt : Halt)
  deriving Repr

/-- The same reply with reports in front of its own. -/
def Reply.after {α : Type} (reports : List Report) : Reply α → Reply α
  | .done value unread later => .done value unread (reports ++ later)
  | .failed report unread later => .failed report unread (reports ++ later)
  | .stopped halt => .stopped halt

/-- Nothing is reported in front. -/
@[simp] theorem Reply.after_nil {α : Type} (reply : Reply α) : reply.after [] = reply := by
  cases reply <;> rfl

/-- Reports in front of reports. -/
@[simp] theorem Reply.after_after {α : Type} (reply : Reply α) (first second : List Report) :
    (reply.after second).after first = reply.after (first ++ second) := by
  cases reply <;> simp [Reply.after]

/-- A parser of values. -/
def Parser (α : Type) := List Lexeme → Reply α

namespace Parser

variable {α β : Type}

/-- Reads nothing. -/
protected def pure (value : α) : Parser α := fun unread => .done value unread []

/-- Reads with one parser and goes on with the next. -/
protected def bind (parser : Parser α) (next : α → Parser β) : Parser β := fun unread =>
  match parser unread with
  | .done value rest reports => (next value rest).after reports
  | .failed report rest reports => .failed report rest reports
  | .stopped halt => .stopped halt

/-- Parsers follow one another as their replies do. -/
instance : Monad Parser where
  pure := Parser.pure
  bind := Parser.bind

/-- The next lexeme, which stays unread. -/
def peek : Parser (Option Lexeme) := fun unread => .done unread.head? unread []

/-- The lexeme behind the next one; both stay unread. -/
def peekSecond : Parser (Option Lexeme) := fun unread => .done unread[1]? unread []

/-- Passes a lexeme, if there is one. -/
def advance : Parser Unit := fun unread => .done () unread.tail []

/-- Whether the next lexeme is one of some marks. -/
def nextIsMark (marks : List String) : Parser Bool := do
  return (← peek).any (·.isMarkOf marks)

/-- Whether the next lexeme is a certain word. -/
def nextIsWord (words : List String) : Parser Bool := do
  return (← peek).any (·.isWordOf words)

/-- Whether nothing is unread. -/
def atEnd : Parser Bool := do
  return (← peek).isNone

/-- Reports that the next lexeme is not what is expected. -/
def complain (expected : Expected) : Parser Complaint := fun unread =>
  let complaint := .unexpected unread.head? expected
  .done complaint unread [⟨unread.length, complaint⟩]

/-- Fails since the next lexeme is not what is expected. -/
def reject (expected : Expected) : Parser α := fun unread =>
  .failed ⟨unread.length, .unexpected unread.head? expected⟩ unread []

/-- Passes the next lexeme and fails since it is not what is expected. -/
def rejectPassing (expected : Expected) : Parser α := fun unread =>
  .failed ⟨unread.length, .unexpected unread.head? expected⟩ unread.tail []

/-- Passes the next lexeme if it is one of some marks, and tells whether it is. -/
def accept (marks : List String) : Parser Bool := do
  if ← nextIsMark marks then
    advance
    return true
  else
    return false

/-- Passes a mark. -/
def expectMark (mark : String) (expected : Expected) : Parser Unit := do
  if ← nextIsMark [mark] then advance else reject expected

/-- Passes a word. -/
def expectWord (word : String) (expected : Expected) : Parser Unit := do
  if ← nextIsWord [word] then advance else reject expected

/-- Reads an identifier. -/
def identifier (expected : Expected) : Parser String := do
  match ← peek with
  | some lexeme =>
    if lexeme.kind = .identifier then
      advance
      return lexeme.text
    else reject expected
  | none => reject expected

/-- Reads a keyword or an identifier. -/
def word (expected : Expected) : Parser String := do
  match ← peek with
  | some lexeme =>
    if lexeme.isWord then
      advance
      return lexeme.text
    else reject expected
  | none => reject expected

/-- Reads a numeral that is the next lexeme. -/
def numeral (text : String) : Parser Number := fun unread =>
  match Numeral.read text with
  | .ok value => .done value unread.tail []
  | .error error => .stopped (.unreadable error)

end Parser

end BraceLang
