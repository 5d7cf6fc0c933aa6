import BraceLang.Yaml.Error

/-!
# Tokens of YAML

A configuration file in YAML 1.1 is first read as a row of tokens. Indentation, and keys that are
known as such only by the colon behind them, show as tokens of their own. Where the reading fails a
last token tells why.
-/

namespace BraceLang.Yaml

/-- A directive in front of a document. -/
inductive Directive where
  | version (major : Nat)
  | tagHandle (handle expansion : String)
  | other
  deriving DecidableEq, Repr

/-- A token. -/
inductive Token where
  | directive (directive : Directive)
  | documentStart
  | documentEnd
  | blockSequence
  | blockMapping
  | blockEnd
  | flowSequence
  | flowSequenceEnd
  | flowMapping
  | flowMappingEnd
  | blockEntry
  | flowEntry
  | key
  | value
  | alias (name : String)
  | anchor (name : String)
  /-- A tag; one without a handle is complete. -/
  | tag (handle : Option String) (suffix : String)
  /-- A scalar, and whether it stands without quotes and indicators. -/
  | scalar (text : List Text.Point) (plain : Bool)
  /-- The place where the reading of tokens failed. -/
  | fault (error : Error)
  deriving DecidableEq, Repr

end BraceLang.Yaml
