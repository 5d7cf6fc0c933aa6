import BraceLang.Source.Tokens

/-!
# Lexers

A lexer reads a source piece by piece. It keeps the tokens that it has read, counts lines and
columns, and reports a fault to its collector where it comes to one; behind a fault it reads no
more. However often it is called, each call adds one end token to what the lexer has read.
-/

namespace BraceLang.Source

/-- A lexer between two pieces. -/
structure Lexer where
  keywords : List String
  unread : List Char
  /-- Whether the piece that was read last is a word. -/
  afterWord : Bool
  place : Location
  tokens : Array Token
  halted : Bool
  collector : Diagnostic.Collector

namespace Lexer

/-- The lexer of a source before the first call. The diagnostics of its collector are about the
source from here on. -/
def start (source : String) (keywords : List String) (file : String)
    (collector : Diagnostic.Collector := .empty none) : Lexer where
  keywords := keywords
  unread := source.toList
  afterWord := false
  place := Location.start file
  tokens := #[]
  halted := false
  collector := collector.attach (some source)

/-- Passes a piece, whose lexeme is a token if it has one. -/
def pass (lexer : Lexer) (piece : Piece) (after : List Char) : Lexer :=
  { lexer with
    unread := after
    afterWord := piece.isWord
    place := lexer.place.advance piece.text
    tokens := match piece.lexeme? lexer.keywords with
      | some lexeme => lexer.tokens.push ⟨lexeme, lexer.place⟩
      | none => lexer.tokens }

/-- Reports a fault and reads no more. -/
def halt (lexer : Lexer) (fault : Fault) : Lexer :=
  let passed := fault.passed lexer.unread
  { lexer with
    unread := lexer.unread.drop passed.length
    place := lexer.place.advance passed
    halted := true
    collector := lexer.collector.report fault.kind fault.message (some lexer.place) }

/-- Reads at most so many pieces, up to the end or to a fault. -/
def read : Nat → Lexer → Lexer
  | 0, lexer => lexer
  | fuel + 1, lexer =>
    match lexer.halted, lexer.unread with
    | true, _ | false, [] => lexer
    | false, c :: rest =>
      match nextPiece lexer.afterWord c rest with
      | .ok (piece, after) => read fuel (lexer.pass piece after)
      | .error fault => lexer.halt fault

/-- Adds an end token. -/
def finish (lexer : Lexer) : Lexer :=
  { lexer with tokens := lexer.tokens.push (Token.ending lexer.place) }

/-- A call, behind which the tokens are those that it gives. -/
def call (lexer : Lexer) : Lexer := (lexer.read lexer.unread.length).finish

end Lexer

end BraceLang.Source
