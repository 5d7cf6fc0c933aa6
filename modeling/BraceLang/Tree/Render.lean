import BraceLang.Tree.Node

/-!
# Rendering trees

A node is rendered as its tag with its value in parentheses. Lists and records have one item to a
line, two columns deeper than the brackets around them; empty ones stay on their line.
-/

namespace BraceLang.Tree

/-- The blanks in front of a line at some depth. There are none at depths below zero. -/
def indentation (depth : Int) : List Char :=
  List.replicate (2 * depth.toNat) ' '

/-- Items one to a line, with commas between them. -/
def joinLines : List (List Char) → List Char
  | [] => []
  | [item] => item
  | item :: rest => item ++ ',' :: '\n' :: joinLines rest

mutual

/-- The text of a value whose first line is at some depth. -/
def Value.renderChars : Value → Int → List Char
  | .atom value, _ => value.written.toList
  | .node tag value, depth => tag.name.toList ++ '(' :: (renderChars value depth ++ [')'])
  | .list [], _ => ['[', ']']
  | .list (item :: rest), depth =>
    '[' :: '\n' :: (joinLines (renderItems (item :: rest) (depth + 1)) ++
      '\n' :: (indentation depth ++ [']']))
  | .record [], _ => ['\x7b', '\x7d']
  | .record (field :: rest), depth =>
    '\x7b' :: '\n' :: (joinLines (renderFields (field :: rest) (depth + 1)) ++
      '\n' :: (indentation depth ++ ['\x7d']))

/-- The lines of the items of a list at some depth. -/
def Value.renderItems : List Value → Int → List (List Char)
  | [], _ => []
  | item :: rest, depth =>
    (indentation depth ++ renderChars item depth) :: renderItems rest depth

/-- The lines of the fields of a record at some depth. -/
def Value.renderFields : List (Atom × Value) → Int → List (List Char)
  | [], _ => []
  | (key, value) :: rest, depth =>
    (indentation depth ++ key.shown.toList ++ ':' :: ' ' :: renderChars value depth) ::
      renderFields rest depth

end

/-- The text of a node whose first line is at some depth. -/
def Node.render (node : Node) (depth : Int := 0) : String :=
  String.ofList (node.toValue.renderChars depth)

end BraceLang.Tree
