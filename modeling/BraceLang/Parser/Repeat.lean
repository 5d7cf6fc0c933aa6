import BraceLang.Parser.Basic

/-!
# Repetition

A repetition goes round as often as its rounds say. A round that goes on has to pass a lexeme, so
there is at most one round more than there are lexemes; a repetition that went on behind that would
not come to an end.
-/

namespace BraceLang

/-- Whether a repetition goes on after a round, and with what. -/
inductive Turn (σ : Type) where
  | again (state : σ)
  | finish (state : σ)
  deriving Repr

namespace Parser

variable {α σ : Type}

/-- Goes round at most once for each of some lexemes and once more. -/
def repeatFor (round : σ → Parser (Turn σ)) : List Lexeme → σ → Parser σ
  | [], state => Parser.bind (round state) fun
    | .again _ => fun _ => .stopped .endless
    | .finish last => Parser.pure last
  | _ :: rest, state => Parser.bind (round state) fun
    | .again next => repeatFor round rest next
    | .finish last => Parser.pure last

/-- Goes round until a round says that it was the last. -/
def repeating (round : σ → Parser (Turn σ)) (state : σ) : Parser σ := fun unread =>
  repeatFor round unread state unread

/-- Reads a comma and an item, if there is a comma. -/
def nextItem (item : Parser α) (items : List α) : Parser (Turn (List α)) := do
  if ← accept [","] then
    let next ← item
    return .again (next :: items)
  else return .finish items

/-- Reads items with commas between them. -/
def separated (item : Parser α) : Parser (List α) := do
  let first ← item
  let items ← repeating (nextItem item) [first]
  return items.reverse

/-- Reads a comma and an item, if there is a comma and the closing mark is not behind it. -/
def nextListed (item : Parser α) (closing : String) (items : List α) :
    Parser (Turn (List α)) := do
  if ← accept [","] then
    if ← nextIsMark [closing] then return .finish items
    else
      let next ← item
      return .again (next :: items)
  else return .finish items

/-- Reads items with commas between them up to a closing mark, which stays unread. A comma may
stand behind the last item. -/
def listed (item : Parser α) (closing : String) : Parser (List α) := do
  if ← nextIsMark [closing] then return []
  else
    let first ← item
    let items ← repeating (nextListed item closing) [first]
    return items.reverse

/-- Reads an item, which may depend on those before it, and a separator behind it, unless the
closing mark or the end is next. -/
def nextUpTo (item : List α → Parser α) (separators : List String) (closing : String)
    (items : List α) : Parser (Turn (List α)) := do
  if ← nextIsMark [closing] then return .finish items
  else if ← atEnd then return .finish items
  else
    let next ← item items
    if ← accept separators then return .again (next :: items)
    else return .finish (next :: items)

/-- Reads items with separators between them up to a closing mark or to the end, which stays unread.
A separator may stand behind the last item. -/
def upTo (item : List α → Parser α) (separators : List String) (closing : String) :
    Parser (List α) := do
  let items ← repeating (nextUpTo item separators closing) []
  return items.reverse

end Parser

end BraceLang
