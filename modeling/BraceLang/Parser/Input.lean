import BraceLang.Diagnostic.Collector
import BraceLang.Parser.Program
import BraceLang.Source.Tokens

/-!
# Parsing tokens and sources

An input is read up to its first end token; what follows is never looked at. Reports become
diagnostics at the places of the tokens that they are about.
-/

namespace BraceLang

/-- The tokens of an input before its end, and the token that stands for the end. -/
structure Input where
  tokens : Array Token
  ending : Token
  deriving DecidableEq, Repr

/-- Whether a token stands before the end of an input. -/
def Input.isInside (token : Token) : Bool := token.kind != .endOfInput

/-- What messages about a token say that was found. -/
def Token.found (token : Token) : Option Lexeme :=
  if Input.isInside token then some token.toLexeme else none

namespace Input

/-- The place where an input without an end token ends: at its last token. -/
def lastPlace (tokens : List Token) : Location :=
  match tokens.getLast? with
  | some token => token.location
  | none => Location.start Location.anonymousFile

/-- The input of a list of tokens. -/
def ofTokens (tokens : List Token) : Input where
  tokens := (tokens.takeWhile isInside).toArray
  ending := match tokens.dropWhile isInside with
    | token :: _ => token
    | [] => Token.ending (lastPlace tokens)

/-- The lexemes of an input. -/
def lexemes (input : Input) : List Lexeme := input.tokens.toList.map Token.toLexeme

/-- The lexemes of an input are those of the tokens before its end. -/
theorem lexemes_ofTokens (tokens : List Token) :
    (ofTokens tokens).lexemes = (tokens.takeWhile isInside).map Token.toLexeme := by
  simp [lexemes, ofTokens]

/-- The token where so many are unread. -/
def tokenAt (input : Input) (left : Nat) : Token :=
  (input.tokens[input.tokens.size - left]?).getD input.ending

/-- The place that a report is about. -/
def placeOf (input : Input) (report : Report) : Location :=
  (input.tokenAt report.left).location

/-- Reports complaints about an input to a collector. -/
def reportTo (input : Input) (reports : List Report) (collector : Diagnostic.Collector) :
    Diagnostic.Collector :=
  collector.reportAll .unexpectedToken <| reports.map fun report =>
    (report.complaint.message, some (input.placeOf report))

end Input

/-- A program with the complaints about it. -/
structure Parsed where
  statements : List Statement
  reports : List Report
  deriving Repr

/-- Parses an input. A program never fails, so the case of a failure is not reached; it stands for
the program that is nothing but the complaint. -/
def Input.parse (input : Input) (options : Options) : Except Halt Parsed :=
  match Parser.program options input.lexemes with
  | .done statements _ reports => .ok ⟨statements, reports⟩
  | .failed report _ reports => .ok ⟨[.error report.complaint], reports ++ [report]⟩
  | .stopped halt => .error halt

/-- Parses tokens. The source of the tokens, if given, is for the lines in the diagnostics. -/
def parseTokens (tokens : List Token) (source : Option String) (options : Options) :
    Except Halt (List Statement × List Diagnostic) := do
  let input := Input.ofTokens tokens
  let parsed ← input.parse options
  return (parsed.statements, (input.reportTo parsed.reports (.empty source)).reported)

/-- Reads the tokens of a source and parses them, with all diagnostics in one list. -/
def parseSource (source : String) (keywords : List String) (file : String) (options : Options) :
    Except Halt (List Statement × List Diagnostic) := do
  let result := Source.tokenization source keywords file
  let input := Input.ofTokens result.complete
  let parsed ← input.parse options
  let collector := result.reportTo (.empty (some source))
  return (parsed.statements, (input.reportTo parsed.reports collector).reported)

end BraceLang
