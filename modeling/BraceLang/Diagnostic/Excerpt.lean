import BraceLang.Text.Lines

/-!
# Excerpts

The line of a program that a diagnostic is about, and a caret below one of its columns.
-/

namespace BraceLang.Diagnostic

/-- A caret below a column counted from one; a column before the first counts as the first. -/
def caret (column : Int) : String :=
  String.ofList (List.replicate (column - 1).toNat ' ' ++ ['^'])

/-- The lines of a text. -/
def linesOf (source : String) : Array (List Char) := (Text.lines source.toList).toArray

/-- One of some lines counted from one, without a carriage return at its end. A line that is not
there is empty. -/
def snippetIn (lines : Array (List Char)) (line : Int) : String :=
  if line < 1 then ""
  else match lines[(line - 1).toNat]? with
    | some line => String.ofList (Text.withoutReturn line)
    | none => ""

/-- A line of a text counted from one. -/
def snippetAt (source : String) (line : Int) : String := snippetIn (linesOf source) line

end BraceLang.Diagnostic
