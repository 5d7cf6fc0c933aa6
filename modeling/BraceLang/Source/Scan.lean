import BraceLang.Source.Piece

/-!
# Scanning a source

The scan takes the longest word, the shortest comment and the shortest quoted text at each place,
and prefers operators of two characters to single marks. It stops at the first fault: a quoted
text or a block comment that is not closed, or a character that is in no piece.
-/

namespace BraceLang.Source

/-- What stops a scan. -/
inductive Fault where
  | unterminatedString
  | unterminatedComment
  | invalidCharacter (c : Char)
  deriving DecidableEq, Repr

/-- The text up to the next `*/` and the text behind it. -/
def splitComment : List Char → Option (List Char × List Char)
  | [] => none
  | c :: rest =>
    match c, rest with
    | '*', '/' :: after => some ([], after)
    | _, _ => (splitComment rest).map fun (body, after) => (c :: body, after)

/-- The longest word at the head of a text, if one begins there, and the rest. A word that is all
digits so far goes on past a point with a digit behind it; so does the empty word, unless a word
ends right there. -/
def splitWord (afterWord : Bool) (text : List Char) : List Char × List Char :=
  let (whole, rest) := text.span isWordChar
  match rest with
  | '.' :: digit :: more =>
    if whole.all Unicode.isDigit && Unicode.isDigit digit && !(whole.isEmpty && afterWord) then
      let (fraction, rest) := (digit :: more).span isWordChar
      (whole ++ '.' :: fraction, rest)
    else (whole, rest)
  | _ => (whole, rest)

/-- The second character of an operator that begins with a character, and the rest. -/
def operatorBehind (first : Char) : List Char → Option (Char × List Char)
  | second :: after => if isOperator first second then some (second, after) else none
  | [] => none

/-- The operator, word or symbol that begins with a character, and the rest. -/
def nextPlain (afterWord : Bool) (c : Char) (rest : List Char) :
    Except Fault (Piece × List Char) :=
  match operatorBehind c rest with
  | some (second, after) => .ok (.operator c second, after)
  | none =>
    let (word, after) := splitWord afterWord (c :: rest)
    if !word.isEmpty then .ok (.word word, after)
    else if isSymbol c then .ok (.symbol c, rest)
    else .error (.invalidCharacter c)

/-- The piece that begins with a character, and the rest. -/
def nextPiece (afterWord : Bool) (c : Char) (rest : List Char) :
    Except Fault (Piece × List Char) :=
  if c = '"' then
    match rest.span (· != '"') with
    | (body, _ :: after) => .ok (.quoted body, after)
    | (_, []) => .error .unterminatedString
  else if Unicode.isBlank c then .ok (.blank c, rest)
  else
    match c, rest with
    | '/', '/' :: rest =>
      let (body, rest) := rest.span (· != '\n')
      .ok (.lineComment body, rest)
    | '/', '*' :: rest =>
      match splitComment rest with
      | some (body, after) => .ok (.blockComment body, after)
      | none => .error .unterminatedComment
    | _, _ => nextPlain afterWord c rest

/-- The pieces of a source up to its end or to a fault. -/
structure Scan where
  pieces : List Piece
  /-- The fault and the text that begins with it. -/
  fault : Option (Fault × List Char)
  deriving DecidableEq, Repr

/-- Scans a text of at most `fuel` characters. -/
def scanFrom : Nat → Bool → List Char → Scan
  | _, _, [] => ⟨[], none⟩
  | 0, _, _ :: _ => ⟨[], none⟩
  | fuel + 1, afterWord, c :: rest =>
    match nextPiece afterWord c rest with
    | .error fault => ⟨[], some (fault, c :: rest)⟩
    | .ok (piece, after) =>
      let scan := scanFrom fuel piece.isWord after
      { scan with pieces := piece :: scan.pieces }

/-- Scans a source. -/
def scan (source : List Char) : Scan :=
  scanFrom source.length false source

end BraceLang.Source
