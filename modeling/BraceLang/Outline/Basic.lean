import BraceLang.Parser.Program

/-!
# Outlines of parsers

An outline tells how a parser is put together: what it asks, what it passes, which parts it repeats,
which it reads one level further in, and which are calls of their own. It is indexed by the parser
that it is an outline of, so that the grammar is not written down once more, and by what the parser
is granted. A machine carries an outline out step by step, and what holds of the parts of every
outline, whatever the grammar is, is proved by induction on outlines.

The index `known` is the lexeme that is next, where that is known: only a parenthesis or an angle
bracket is ever a reason to ask for the lexeme behind it. A list of statements is at a boundary
wherever it asks whether there is another statement.
-/

namespace BraceLang

open BraceLang.Parser

/-- The marks behind which a second lexeme is asked for. -/
def deciders : List String := ["(", "<"]

/-- What is granted to a parser. -/
structure Allowance where
  /-- Whether there may be lists of statements among its parts. -/
  lists : Bool
  /-- How many levels may be opened inside one another. -/
  levels : Nat
  /-- Whether a name and an opening brace begin a struct literal. -/
  literals : Bool
  deriving DecidableEq, Repr

/-- How a parser is put together that is granted something. -/
inductive Outline : {α : Type} → Allowance → Option Lexeme → Parser α → Type 1 where
  | pure {α : Type} {allowance : Allowance} {known : Option Lexeme} (value : α) :
    Outline allowance known (Pure.pure value : Parser α)
  | bind {α β : Type} {allowance : Allowance} {known : Option Lexeme} {parser : Parser α}
    {next : α → Parser β} : Outline allowance known parser →
    (∀ value, Outline allowance none (next value)) → Outline allowance known (parser >>= next)
  | cond {α : Type} {allowance : Allowance} {known : Option Lexeme} {yes no : Parser α}
    (condition : Prop) [Decidable condition] : (condition → Outline allowance known yes) →
    (¬condition → Outline allowance known no) →
    Outline allowance known (if condition then yes else no)
  /-- Does not make use of the lexeme that is next. -/
  | anyway {α : Type} {allowance : Allowance} {known : Option Lexeme} {parser : Parser α} :
    Outline allowance none parser → Outline allowance known parser
  /-- Asks what is next. -/
  | look {α : Type} {allowance : Allowance} {known : Option Lexeme}
    {next : Option Lexeme → Parser α} : Outline allowance none (next none) →
    (∀ lexeme, Outline allowance (some lexeme) (next (some lexeme))) →
    Outline allowance known (peek >>= next)
  /-- Asks what is behind the next lexeme. -/
  | second {allowance : Allowance} {lexeme : Lexeme} : lexeme.isMarkOf deciders = true →
    Outline allowance (some lexeme) peekSecond
  /-- Asks whether the next lexeme is a certain mark, and only if it is, what is behind it. -/
  | both {allowance : Allowance} {known : Option Lexeme} (mark : String)
    (test : Option Lexeme → Bool) : mark ∈ deciders →
    Outline allowance known do
      let first ← nextIsMark [mark]
      let second ← peekSecond
      return first && test second
  | advance {allowance : Allowance} : Outline allowance none advance
  | complain {allowance : Allowance} (expected : Expected) :
    Outline allowance none (complain expected)
  | reject {α : Type} {allowance : Allowance} (expected : Expected) :
    Outline allowance none (reject expected : Parser α)
  | rejectPassing {α : Type} {allowance : Allowance} (expected : Expected) :
    Outline allowance none (rejectPassing expected : Parser α)
  | numeral {allowance : Allowance} (text : String) : Outline allowance none (numeral text)
  /-- Goes round. In a chain every round behind the first is called by the round before it, and
  comes to an end before that one does. -/
  | repeating {σ : Type} {allowance : Allowance} {round : σ → Parser (Turn σ)} (chain : Bool)
    (state : σ) : (∀ state, Outline allowance none (round state)) →
    Outline allowance none (repeating round state)
  /-- Reads one level further in. -/
  | nested {α : Type} {lists : Bool} {levels : Nat} {literals : Bool} {layer : Layer}
    {parser : Layer → Parser α} : Outline ⟨lists, levels, literals⟩ none (parser layer) →
    Outline ⟨lists, levels + 1, literals⟩ none (BraceLang.nested (some layer) parser)
  /-- Finds that there is no level left. -/
  | tooDeep {α : Type} {lists literals : Bool} (parser : Layer → Parser α) :
    Outline ⟨lists, 0, literals⟩ none (BraceLang.nested none parser)
  | recovered {allowance : Allowance} {parser : Parser Statement} :
    Outline allowance none parser → Outline allowance none (recovered parser)
  | passing {α : Type} {allowance : Allowance} {parser : Parser α} :
    Outline allowance none parser → Outline allowance none (passing parser)
  /-- Is where a list of statements may go on or end. -/
  | boundary {α : Type} {levels : Nat} {literals : Bool} {parser : Parser α} :
    Outline ⟨true, levels, literals⟩ none parser → Outline ⟨true, levels, literals⟩ none parser
  /-- Has no list of statements among its parts. -/
  | plain {α : Type} {levels : Nat} {literals : Bool} {known : Option Lexeme}
    {parser : Parser α} : Outline ⟨false, levels, literals⟩ known parser →
    Outline ⟨true, levels, literals⟩ known parser
  /-- Allows struct literals, or forbids them. -/
  | allowing {α : Type} {lists : Bool} {levels : Nat} {literals : Bool} {parser : Parser α}
    (allowed : Bool) : Outline ⟨lists, levels, allowed⟩ none parser →
    Outline ⟨lists, levels, literals⟩ none parser
  /-- Asks whether struct literals are allowed. -/
  | asking {α : Type} {allowance : Allowance} (next : Bool → Parser α) :
    (∀ answer, Outline allowance none (next answer)) →
    Outline allowance none (next allowance.literals)
  /-- Is a call of its own. -/
  | call {α : Type} {allowance : Allowance} {parser : Parser α} :
    Outline allowance none parser → Outline allowance none parser

end BraceLang
