import BraceLang.Diagnostic.Collector
import BraceLang.Source.Scan
import BraceLang.Text.Quoted

/-!
# Tokens of a source

The tokens of a source are the lexemes of its pieces, each at the place of its first character. A
last token marks the end of the input: where the source ends, or at a character that is in no
piece, behind which nothing is read.
-/

namespace BraceLang.Source

/-- The tokens of a row of pieces that begins at a place. -/
def tokensAt (keywords : List String) : Location → List Piece → List Token
  | _, [] => []
  | location, piece :: rest =>
    let tokens := tokensAt keywords (location.advance piece.text) rest
    match piece.lexeme? keywords with
    | some lexeme => ⟨lexeme, location⟩ :: tokens
    | none => tokens

/-- The text of a row of pieces. -/
def textOf (pieces : List Piece) : List Char :=
  pieces.flatMap Piece.text

/-- The kind of diagnostic for a fault. -/
def Fault.kind : Fault → DiagnosticKind
  | .unterminatedString => .unterminatedString
  | .unterminatedComment => .unterminatedComment
  | .invalidCharacter _ => .invalidCharacter

/-- The wording of a fault. -/
def Fault.message : Fault → String
  | .unterminatedString => "Unterminated string literal"
  | .unterminatedComment => "Unterminated block comment"
  | .invalidCharacter c => "Invalid character " ++ Text.quoted (String.ofList [c])

/-- How much of the text that begins with a fault is passed before the scan stops: an open
comment or quoted text takes everything. -/
def Fault.passed : Fault → List Char → List Char
  | .invalidCharacter _, _ => []
  | _, text => text

/-- The tokens of a source, without the one that marks the end. -/
structure Tokenization where
  tokens : List Token
  stop : Location
  fault : Option (Fault × Location)
  deriving DecidableEq, Repr

/-- The tokens of a source and the fault in it, if any. -/
def tokenization (source : String) (keywords : List String) (file : String) : Tokenization :=
  let start := Location.start file
  let scan := scan source.toList
  let reached := start.advance (textOf scan.pieces)
  { tokens := tokensAt keywords start scan.pieces
    stop := match scan.fault with
      | some (fault, text) => reached.advance (fault.passed text)
      | none => reached
    fault := scan.fault.map fun (fault, _) => (fault, reached) }

namespace Tokenization

/-- Whether a fault stopped the scan. -/
def halted (result : Tokenization) : Bool := result.fault.isSome

/-- The tokens with the one that marks the end. Each further reading at the end gives that token
once more. -/
def complete (result : Tokenization) (readings : Nat := 1) : List Token :=
  result.tokens ++ List.replicate readings (Token.ending result.stop)

/-- Reports the fault, if there is one, to a collector. -/
def reportTo (result : Tokenization) (collector : Diagnostic.Collector) : Diagnostic.Collector :=
  match result.fault with
  | some (fault, location) => collector.report fault.kind fault.message (some location)
  | none => collector

end Tokenization

/-- The tokens of a source with the one that marks the end, and the diagnostics. -/
def tokenize (source : String) (keywords : List String := [])
    (file : String := Location.anonymousFile) : List Token × List Diagnostic :=
  let result := tokenization source keywords file
  (result.complete, (result.reportTo (.empty (some source))).reported)

end BraceLang.Source
