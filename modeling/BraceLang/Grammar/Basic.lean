import BraceLang.Data.Datum
import BraceLang.Data.Kind
import BraceLang.Program.Basic
import BraceLang.Unicode.Blank

/-!
# Grammars

A grammar is a set of keywords and the options of the parser. It is read from a record with a list
of keywords under `keywords` and, if wanted, a record of options under `parser`. Each way in which
this may fail is a cause of its own; the first one found is told.
-/

namespace BraceLang

/-- The keywords and options of a language. -/
structure Grammar where
  /-- Every keyword once, in the order of code points. -/
  keywords : List String
  options : Options
  deriving DecidableEq, Repr

namespace Grammar

/-- Why a datum is no grammar. -/
inductive Error where
  | notRecord
  | keywordsMissing
  | keywordsNotList
  | invalidKeyword (item : Datum)
  /-- An invalid keyword that cannot be written either. -/
  | unwritableKeyword (error : WritingError)
  | optionsNotRecord
  | unknownOptions (names : List String)
  /-- An option whose name is no text. -/
  | optionNotText (key : Atom)
  /-- Two options whose names are of different kinds, neither of them known. -/
  | optionsUnlike (left right : Atom)
  | optionNotBoolean (name : Atom)
  deriving Repr

/-- The wording of an error about the grammar of some origin. -/
def Error.message (origin : String) : Error → String
  | .notRecord => origin ++ ": grammar must be a mapping"
  | .keywordsMissing => origin ++ ": missing 'keywords'"
  | .keywordsNotList => origin ++ ": 'keywords' must be a list"
  | .invalidKeyword item => origin ++ ": invalid keyword " ++ item.written
  | .unwritableKeyword error => error.message
  | .optionsNotRecord => origin ++ ": 'parser' must be a mapping"
  | .unknownOptions names =>
    origin ++ ": unknown parser options: " ++ ", ".intercalate names
  | .optionNotText key =>
    "sequence item 0: expected str instance, " ++ key.kindName ++ " found"
  | .optionsUnlike left right => left.orderComplaint right
  | .optionNotBoolean name =>
    origin ++ ": parser option " ++ name.written ++ " must be true or false"

/-- A keyword is a text with no blank in it, and is not empty. -/
def isKeyword (text : String) : Bool :=
  !text.isEmpty && !text.toList.any Unicode.isBlank

/-- The keyword that a datum is, if it is one. -/
def keyword? : Datum → Option String
  | .atom value => value.text?.filter isKeyword
  | _ => none

/-- Reads a keyword. The complaint about an item that is none tells the item, so there has to be
room for writing it: for so many values inside one another. -/
def readKeyword (room : Nat) (item : Datum) : Except Error String :=
  match keyword? item with
  | some word => .ok word
  | none =>
    match item.writingError? room with
    | some error => .error (.unwritableKeyword error)
    | none => .error (.invalidKeyword item)

/-- Texts without repetitions, in the order of code points. -/
def sortedTexts (texts : List String) : List String :=
  texts.eraseDups.mergeSort (fun a b => decide (a ≤ b))

/-- Reads a list of keywords. -/
def readKeywords (room : Nat) : Datum → Except Error (List String)
  | .list items => sortedTexts <$> items.mapM (readKeyword room)
  | _ => .error .keywordsNotList

/-- The option for the return types of functions. -/
def functionOption : String := "fn_requires_return_type"

/-- The option for the return types of methods. -/
def methodOption : String := "method_requires_return_type"

/-- Whether an atom is the name of an option. -/
def isOption (key : Atom) : Bool :=
  key == .text functionOption || key == .text methodOption

/-- Refuses names of options that are unknown. They are told in order, so names that have none are
refused first, and then a least name that is no text. -/
def checkNames (keys : List Atom) : Except Error Unit :=
  match keys.filter (!isOption ·) with
  | [] => .ok ()
  | first :: rest =>
    match rest.find? (·.kind != first.kind) with
    | some other => .error (.optionsUnlike other first)
    | none =>
      if first.kind = .text then
        .error (.unknownOptions (sortedTexts ((first :: rest).filterMap Atom.text?)))
      else .error (.optionNotText (first.least rest))

/-- Reads a truth value, if the option is given. -/
def readOption (fields : Fields Datum) (name : String) (missing : Bool) : Bool :=
  match fields.get? (.text name) with
  | some (.atom (.boolean value)) => value
  | _ => missing

/-- Refuses values of options that are no truth values. -/
def checkValues (fields : Fields Datum) : Except Error Unit :=
  fields.forM fun (key, value) =>
    match value with
    | .atom (.boolean _) => .ok ()
    | _ => .error (.optionNotBoolean key)

/-- Reads the options; none are given where there is nothing or a null. -/
def readOptions : Option Datum → Except Error Options
  | none | some (.atom .null) => .ok {}
  | some (.record fields) => do
    checkNames (fields.map Prod.fst)
    checkValues fields
    let standard : Options := {}
    return ⟨readOption fields functionOption standard.functionsStateReturn,
      readOption fields methodOption standard.methodsStateReturn⟩
  | some _ => .error .optionsNotRecord

/-- Reads a grammar, with room for so many values inside one another where a complaint is worded. -/
def ofDatum (room : Nat) : Datum → Except Error Grammar
  | .record fields =>
    match Fields.get? fields (.text "keywords") with
    | none => .error .keywordsMissing
    | some keywords => do
      let keywords ← readKeywords room keywords
      let options ← readOptions (Fields.get? fields (.text "parser"))
      return ⟨keywords, options⟩
  | _ => .error .notRecord

/-- The grammar that is used where no other is given. The words for truth values are not among its
keywords; the parser knows them by their spelling. -/
def standard : Grammar where
  keywords := ["break", "const", "continue", "else", "fn", "for", "if", "impl", "in", "let",
    "return", "struct", "while"]
  options := {}

end Grammar

end BraceLang
