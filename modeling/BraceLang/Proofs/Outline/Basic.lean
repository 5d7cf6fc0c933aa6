import BraceLang.Outline.Grammar
import BraceLang.Proofs.Parsing.Runs

/-!
# Whatever has an outline goes on by steps

The parts of an outline are steps, or are put together from parts in ways that keep to steps.
-/

namespace BraceLang

open BraceLang.Parser

/-- Whatever has an outline goes on by steps. -/
theorem Outline.runs {α : Type} {allowance : Allowance} {known : Option Lexeme}
    {parser : Parser α} (outline : Outline allowance known parser) : parser.Runs := by
  induction outline with
  | pure value => exact .pure value
  | bind _ _ ihParser ihNext => exact ihParser.bind ihNext
  | cond condition _ _ ihYes ihNo =>
    split
    · exact ihYes ‹_›
    · exact ihNo ‹_›
  | anyway _ ih | boundary _ ih | plain _ ih | allowing _ _ ih | call _ ih => exact ih
  | asking next _ ih => exact ih _
  | look _ _ ihNone ihSome =>
    refine peek_runs.bind fun found => ?_
    cases found with
    | none => exact ihNone
    | some lexeme => exact ihSome lexeme
  | second => exact peekSecond_runs
  | both mark =>
    exact (nextIsMark_runs _).bind fun _ => peekSecond_runs.bind fun _ => .pure _
  | advance => exact advance_runs
  | complain expected => exact complain_runs expected
  | reject expected => exact reject_runs expected
  | rejectPassing expected => exact rejectPassing_runs expected
  | numeral text => exact numeral_runs text
  | repeating chain state _ ih => exact .repeating ih state
  | nested _ ih => exact ih
  | tooDeep parser => exact .nested fun _ hlayer => nomatch hlayer
  | recovered _ ih => exact ih.recovered
  | passing _ ih => exact ih.passing

end BraceLang
