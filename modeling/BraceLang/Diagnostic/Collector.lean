import BraceLang.Diagnostic.Basic
import BraceLang.Diagnostic.Excerpt

/-!
# Collecting diagnostics

A collector keeps diagnostics in the order in which they are reported. One with a place gets a
caret below its column and, when the source of the program is known at that time, the line.
-/

namespace BraceLang.Diagnostic

/-- Diagnostics in the order of their reports, and the source that the next ones are about. -/
structure Collector where
  source : Option String
  reported : List Diagnostic
  deriving DecidableEq, Repr

/-- The diagnostic of a report about a source whose lines may be known. -/
def make (lines : Option (Array (List Char))) (kind : DiagnosticKind) (message : String)
    (location : Option Location) : Diagnostic :=
  match location, lines with
  | none, _ => ⟨kind, message, none, "", ""⟩
  | some place, none => ⟨kind, message, some place, "", caret place.column⟩
  | some place, some lines =>
    ⟨kind, message, some place, snippetIn lines place.line, caret place.column⟩

/-- Diagnostics one to a line. -/
def textOfAll (diagnostics : List Diagnostic) : String :=
  "\n".intercalate (diagnostics.map text)

namespace Collector

/-- A collector without diagnostics. -/
def empty (source : Option String) : Collector := ⟨source, []⟩

/-- The same diagnostics; the next ones are about another source, or none that is known. -/
def attach (collector : Collector) (source : Option String) : Collector :=
  { collector with source }

/-- Adds a diagnostic for each of some messages with their places. -/
def reportAll (collector : Collector) (kind : DiagnosticKind)
    (messages : List (String × Option Location)) : Collector :=
  let lines := collector.source.map linesOf
  { collector with
    reported := collector.reported ++
      messages.map fun (message, location) => make lines kind message location }

/-- Adds a diagnostic. -/
def report (collector : Collector) (kind : DiagnosticKind) (message : String)
    (location : Option Location) : Collector :=
  collector.reportAll kind [(message, location)]

/-- Messages are added one after the other. -/
theorem reportAll_cons (collector : Collector) (kind : DiagnosticKind) (message : String)
    (location : Option Location) (rest : List (String × Option Location)) :
    collector.reportAll kind ((message, location) :: rest) =
      (collector.report kind message location).reportAll kind rest := by
  simp [report, reportAll]

end Collector

end BraceLang.Diagnostic
