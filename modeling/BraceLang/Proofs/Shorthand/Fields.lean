import BraceLang.Proofs.Containment.Enclosures
import BraceLang.Proofs.Shorthand.Exchange

/-!
# Fields that are their own values

A field of a struct literal may be no more than a name. Where the literal is read, that name may as
well be its own value: with a colon and the name once more the fields come to the same. The name
alone is not looked at any closer, though, and as a value it may be a truth value.
-/

namespace BraceLang

open BraceLang.Parser

variable {options : Options} {levels : Nat} {struct : String}

/-- A name that ends a field is an expression on its own. -/
theorem Parser.expression_isPlainName {inside : Option Layer} {name next : Lexeme}
    (hname : name.IsPlainName) (hnext : next.isMarkOf [",", "\x7d"] = true) (rest : List Lexeme) :
    expression inside true (name :: next :: rest) =
      .done (.name ⟨name.text, []⟩) (next :: rest) [] := by
  have hnot {mark : String} (hmark : mark ∉ [",", "\x7d"]) : NotMark [mark] (next :: rest) :=
    Lexeme.isMarkOf_disjoint hnext fun _ hmem hsame => hmark (List.mem_singleton.mp hsame ▸ hmem)
  refine expression_of_primary ?_ (hnot (by decide))
    (operatorsBelow_of_isMarkOf hnext (by decide) 0 rest)
  rw [primary_isPlainName hname, named, nextIsMark_bind, hnot (by decide), if_neg (by simp),
    nextAreTypeArguments_bind, hnot (by decide), Bool.false_and, Bool.false_and, if_neg (by simp),
    called, nextIsMark_bind, hnot (by decide)]
  rfl

/-- The parser for a further field of a struct literal where so many more levels may be opened. -/
def Parser.nextField (options : Options) (levels : Nat) (struct : String) :
    List (String × Expression) → Parser (Turn (List (String × Expression))) :=
  nextUpTo (literalField (.around options (layerInside options levels)) struct) [","] "\x7d"

/-- There is an outline of that. -/
def nextFieldOutline (options : Options) (levels : Nat) (struct : String)
    (given : List (String × Expression)) :
    Outline ⟨true, levels, true⟩ none (nextField options levels struct given) :=
  .nextUpTo (InsideOutlines.literalField (insideOutlines options levels).around struct) [","]
    "\x7d" given

section Rounds

variable {name : Lexeme} {given : List (String × Expression)}

/-- A field whose name is given ends the reading of the fields. -/
theorem Parser.nextField_given (hname : name.kind = .identifier)
    (hgiven : given.any (·.1 == name.text) = true) (unread : List Lexeme) :
    nextField options levels struct given (name :: unread) =
      .failed ⟨unread.length + 1, .unexpected (some name) (.unsetField struct)⟩ unread [] := by
  refine (nextUpTo_isIdentifier hname unread).trans (bind_of_failed _ ?_)
  rw [literalField_isIdentifier hname, if_pos hgiven]

variable (hnew : given.any (·.1 == name.text) = false)
include hnew

/-- What is held behind a field that is a name, and whether there may be another field. -/
theorem Parser.nextField_short {far : List Lexeme} (hname : name.kind = .identifier)
    (hcolon : NotMark [":"] far) :
    nextField options levels struct given (name :: far) =
      if far.head?.any (·.isMarkOf [","]) then
        .done (.again ((name.text, .name ⟨name.text, []⟩) :: given)) far.tail []
      else .done (.finish ((name.text, .name ⟨name.text, []⟩) :: given)) far [] := by
  have hfield : literalField (.around options (layerInside options levels)) struct given
      (name :: far) = .done (name.text, .name ⟨name.text, []⟩) far [] := by
    rw [literalField_isIdentifier hname, hnew, if_neg (by simp), hcolon, if_neg (by simp)]
  rw [nextField, nextUpTo_isIdentifier hname, bind_of_silent _ hfield, accept_bind]
  rfl

/-- The same is held behind a field that is a name with the name as its value. -/
theorem Parser.nextField_spelledOut {colon next : Lexeme} (hname : name.IsPlainName)
    (hcolon : colon.isMarkOf [":"] = true) (hnext : next.isMarkOf [",", "\x7d"] = true)
    (behind : List Lexeme) :
    nextField options levels struct given (name :: colon :: name :: next :: behind) =
      nextField options levels struct given (name :: next :: behind) := by
  have hshort : NotMark [":"] (next :: behind) := Lexeme.isMarkOf_disjoint hnext (by decide)
  have hfield : literalField (.around options (layerInside options levels)) struct given
      (name :: colon :: name :: next :: behind) =
        .done (name.text, .name ⟨name.text, []⟩) (next :: behind) [] := by
    rw [literalField_isIdentifier hname.1, hnew, if_neg (by simp), List.head?_cons, Option.any_some,
      if_pos hcolon, List.tail_cons]
    exact map_of_done _ (expression_isPlainName hname hnext behind)
  rw [nextField_short hnew hname.1 hshort, nextField, nextUpTo_isIdentifier hname.1,
    bind_of_silent _ hfield, accept_bind]
  rfl

end Rounds

/-- While a program is read, the fields of a struct literal come to one that is a name without a
colon: in front of it are the lexemes before the literal, the opening brace and what the fields
before it are read from. -/
inductive ShortField (options : Options) (name : Lexeme) (far : List Lexeme) : List Lexeme → Prop
  | field {levels : Nat} {struct : String} {given : List (String × Expression)} {opening : Lexeme}
    {near between : List Lexeme} :
    (programOutline options).Reaches (structLiteral (layerInside options (levels + 1)) struct)
      (opening :: (between ++ name :: far)) (near ++ opening :: (between ++ name :: far)) →
    RoundsTo (nextField options levels struct) [] (between ++ name :: far) given (name :: far) →
    name.kind = .identifier → NotMark [":"] far →
    ShortField options name far (near ++ opening :: between)

/-- The name of a shorthand field is an identifier. -/
theorem ShortField.kind_eq {name : Lexeme} {near far : List Lexeme}
    (hfield : ShortField options name far near) : name.kind = .identifier := by
  cases hfield
  assumption

section SpelledOut

variable {name : Lexeme} {near far between : List Lexeme} {given : List (String × Expression)}

/-- A field is spelled out by a colon and its own name behind it. -/
def spelledOut (name colon : Lexeme) (far : List Lexeme) (hname : name.kind = .identifier) :
    Exchange where
  seam := name
  old := far
  new := colon :: name :: far
  seam_isMarkOf := Lexeme.isMarkOf_of_not_isMark (by simp [Lexeme.isMark, hname])
  length_le := Nat.le_add_right far.length 2

/-- Behind a field without a colon a struct literal that comes to a value goes on with a comma or
ends with its closing brace. -/
theorem Parser.exists_cons_of_structLiteral {opening : Lexeme} {rest : List Lexeme}
    {value : Expression} (hname : name.kind = .identifier) (hcolon : NotMark [":"] far)
    (hrounds : RoundsTo (nextField options levels struct) [] (between ++ name :: far) given
      (name :: far))
    (hdone : structLiteral (layerInside options (levels + 1)) struct
      (opening :: (between ++ name :: far)) = .done value rest []) :
    given.any (·.1 == name.text) = false ∧
      ∃ next behind, far = next :: behind ∧ next.isMarkOf [",", "\x7d"] = true := by
  obtain ⟨_, middle, hadvance, hfields⟩ := exists_of_bind_eq_silent hdone
  obtain rfl := (Reply.done.inj hadvance).2.1
  obtain ⟨fields, left, hupTo, hclosing⟩ := exists_of_bind_eq_silent hfields
  obtain ⟨items, last, hrepeating, hreverse⟩ := exists_of_bind_eq_silent hupTo
  obtain rfl := (Reply.done.inj hreverse).2.1
  obtain ⟨remaining, hremaining⟩ := hrounds.exists_remaining hrepeating
  cases hnew : given.any (·.1 == name.text) with
  | true =>
    rw [repeatFor_of_failed remaining (nextField_given hname hnew far)] at hremaining
    cases hremaining
  | false =>
    refine ⟨rfl, ?_⟩
    have hround : nextField options levels struct given (name :: far) = _ :=
      nextField_short hnew hname hcolon
    by_cases hcomma : far.head?.any (·.isMarkOf [","]) = true
    · obtain ⟨next, behind, rfl, hnext⟩ := exists_cons_of_head_any hcomma
      exact ⟨next, behind, rfl, Lexeme.isMarkOf_subset hnext (by decide)⟩
    · rw [if_neg hcomma] at hround
      rw [repeatFor_of_finish remaining hround] at hremaining
      obtain rfl := (Reply.done.inj hremaining).2.1
      obtain ⟨_, _, hbrace, -⟩ := exists_of_bind_eq_silent hclosing
      obtain ⟨next, rfl, hnext⟩ := exists_mark_of_expectMark hbrace
      exact ⟨next, _, rfl, Lexeme.isMarkOf_subset hnext (by decide)⟩

/-- A struct literal is the same with a field spelled out. -/
theorem Parser.structLiteral_exchanges {opening colon : Lexeme} (hname : name.IsPlainName)
    (hcolon : colon.isMarkOf [":"] = true) (hshort : NotMark [":"] far)
    (hrounds : RoundsTo (nextField options levels struct) [] (between ++ name :: far) given
      (name :: far)) :
    (structLiteral (layerInside options (levels + 1)) struct).Exchanges
      (spelledOut name colon far hname.1) (opening :: between) := by
  intro value rest hdone
  obtain ⟨hnew, next, behind, rfl, hnext⟩ :=
    exists_cons_of_structLiteral hname.1 hshort hrounds hdone
  have hround : (nextField options levels struct given).Exchanges
      (spelledOut name colon (next :: behind) hname.1) [] := by
    intro turn left hturn
    refine ⟨?_, (nextField_spelledOut hnew hname hcolon hnext behind).trans hturn⟩
    change nextField options levels struct given (name :: next :: behind) = _ at hturn
    rw [nextField_short hnew hname.1 hshort] at hturn
    split at hturn
    · obtain rfl := (Reply.done.inj hturn).2.1
      exact List.suffix_cons _ _
    · obtain rfl := (Reply.done.inj hturn).2.1
      exact List.suffix_refl _
  have hrepeating : (repeating (nextField options levels struct) []).Exchanges
      (spelledOut name colon (next :: behind) hname.1) between := by
    rw [← List.nil_append (name :: next :: behind)] at hrounds
    exact .repeating (nextFieldOutline options levels struct) hrounds hround
  have hbehind : (do
      let fields ← upTo (literalField (.around options (layerInside options levels)) struct) [","]
        "\x7d"
      expectMark "\x7d" .literalClosing
      return .structLiteral struct fields : Parser Expression).Exchanges
        (spelledOut name colon (next :: behind) hname.1) between :=
    .bind (.bind hrepeating fun _ => .pure _) fun _ => (expectMark_runs _ _).bind fun _ => .pure _
  have hliteral : (structLiteral (layerInside options (levels + 1)) struct).Exchanges
      (spelledOut name colon (next :: behind) hname.1) (opening :: between) :=
    .behind (.advance : Outline ⟨true, levels, true⟩ none advance) (fun _ h => nomatch h) rfl hbehind
  exact hliteral hdone

/-- A program is the same with a field spelled out. -/
theorem Parser.program_spelledOut {colon : Lexeme} {near : List Lexeme} {program : List Statement}
    (hfield : ShortField options name far near) (hplain : isPlainName name.text = true)
    (hcolon : colon.isMarkOf [":"] = true)
    (hdone : Parser.program options (near ++ name :: far) = .done program [] []) :
    Parser.program options (near ++ name :: colon :: name :: far) = .done program [] [] := by
  cases hfield with
  | @field levels struct given opening near between hreaches hrounds hname hshort =>
    have hliteral := @structLiteral_exchanges _ _ _ _ _ _ _ opening _ ⟨hname, hplain⟩ hcolon hshort
      hrounds
    rw [← List.cons_append, ← List.append_assoc] at hreaches
    have hprogram : (Parser.program options).Exchanges (spelledOut name colon far hname)
        (near ++ opening :: between) := hreaches.exchanges hliteral fun _ h => nomatch h
    exact (hprogram hdone).2

end SpelledOut

section Beginnings

/-- What no word begins is called for where no word is. -/
theorem WordOutline.reaches_either {β : Type} {goal : Parser β} {place unread : List Lexeme}
    {found : Option (Parser Statement)} {otherwise : Parser Statement}
    {other : Outline ⟨true, levels, true⟩ none otherwise} (outline : WordOutline levels found)
    (hfound : found = none) (hother : other.Reaches goal place unread) :
    (outline.either other).Reaches goal place unread := by
  subst hfound
  cases outline
  exact hother

variable {name opening : Lexeme} {inside : Option Layer} (outlines : InsideOutlines inside levels)
  (hname : name.IsPlainName) (hopening : opening.isMarkOf ["\x7b"] = true) (rest : List Lexeme)
include hname hopening

/-- An expression that begins with a name and a brace begins with a struct literal. -/
theorem InsideOutlines.expression_reaches_literal :
    (outlines.expression : Outline ⟨true, levels, true⟩ none _).Reaches
      (Parser.structLiteral inside name.text) (opening :: rest) (name :: opening :: rest) := by
  obtain ⟨kind, text⟩ := name
  obtain ⟨hkind, hplain⟩ := hname
  obtain rfl : kind = .identifier := hkind
  have hnot : ¬(text = "true" ∨ text = "false") := by simpa [isPlainName, not_or] using hplain
  have hnamed : (outlines.named text : Outline ⟨true, levels, true⟩ none _).Reaches
      (Parser.structLiteral inside text) (opening :: rest) (opening :: rest) :=
    .asking (.behind rfl (.affirmed (by simpa using hopening) (.here _)))
  have hprimary : (outlines.primary : Outline ⟨true, levels, true⟩ none _).Reaches
      (Parser.structLiteral inside text) (opening :: rest)
      (⟨.identifier, text⟩ :: opening :: rest) :=
    .call (.look (.anyway (.denied hnot (.affirmed rfl (.call (.behind rfl hnamed))))))
  have hbinary (count : Nat) : (InsideOutlines.binary
      (outlines.operand : Outline ⟨true, levels, true⟩ none _) count).Reaches
      (Parser.structLiteral inside text) (opening :: rest)
      (⟨.identifier, text⟩ :: opening :: rest) := by
    induction count with
    | zero => exact .first hprimary
    | succ count ih => exact .first ih
  exact .call (.affirmed (by decide) (hbinary _))

/-- So does a statement, unless the name is a word that begins statements of another form. -/
theorem InsideOutlines.statement_reaches_literal
    (hword : Parser.behindWord options inside name.text = none) :
    (outlines.statement : Outline _ none (Parser.statement options inside)).Reaches
      (Parser.structLiteral inside name.text) (opening :: rest) (name :: opening :: rest) := by
  have hexpression := outlines.expression_reaches_literal hname hopening rest
  refine .call (.look (.anyway ?_))
  refine (outlines.statementAt name).reaches_either ?_ (.call (.first hexpression))
  rw [hword, ite_self]

omit outlines in
/-- And so does a program. -/
theorem programOutline_reaches_literal
    (hword : behindWord options (outermost options) name.text = none) :
    (programOutline options).Reaches (structLiteral (outermost options) name.text)
      (opening :: rest) (name :: opening :: rest) := by
  have hstatement := (insideOutlines options maxNesting).statement_reaches_literal hname hopening
    rest hword
  have hnone : nextIsMark [] (name :: opening :: rest) =
      .done false (name :: opening :: rest) [] := by
    rw [nextIsMark, peek_bind, List.head?_cons, Option.any_some,
      Lexeme.isMarkOf_of_not_isMark (by simp [Lexeme.isMark, hname.1])]
    rfl
  refine .call (.call (.first (.round .here (.boundary ?_))))
  refine .behind rfl (.denied (by simp) (.behind hnone (.denied (by simp) ?_)))
  exact .first (.passing (.recovered hstatement))

end Beginnings

/-- A field of a struct literal in a program that is parsed without a diagnostic is a name without a
colon, and no truth value. With a colon and the name once more behind it the program is the same,
and there is no diagnostic either. -/
theorem parseTokens_spelledOut {near far : List Token} {field name colon value : Token}
    {source : Option String} {options : Options} {program : List Statement}
    (hnear : ∀ token ∈ near, Input.isInside token = true)
    (hparsed : parseTokens (near ++ field :: far) source options = .ok (program, []))
    (hfield : ShortField options field.toLexeme (Input.ofTokens far).lexemes
      (near.map Token.toLexeme))
    (hplain : isPlainName field.text = true) (hname : name.toLexeme = field.toLexeme)
    (hcolon : colon.isMarkOf [":"] = true) (hvalue : value.toLexeme = field.toLexeme) :
    parseTokens (near ++ name :: colon :: value :: far) source options = .ok (program, []) := by
  have hinside {token : Token} (htoken : token.toLexeme = field.toLexeme) :
      Input.isInside token = true := by
    rw [Input.isInside, htoken, hfield.kind_eq]
    rfl
  have hshort : (Input.ofTokens (near ++ field :: far)).lexemes =
      near.map Token.toLexeme ++ field.toLexeme :: (Input.ofTokens far).lexemes := by
    rw [Input.lexemes_ofTokens_append _ hnear]
    have hone : ∀ token ∈ [field], Input.isInside token = true :=
      List.forall_mem_singleton.mpr (hinside rfl)
    exact congrArg _ (Input.lexemes_ofTokens_append far hone)
  have hlong : (Input.ofTokens (near ++ name :: colon :: value :: far)).lexemes =
      near.map Token.toLexeme ++ field.toLexeme :: colon.toLexeme :: field.toLexeme ::
        (Input.ofTokens far).lexemes := by
    have hthree : ∀ token ∈ [name, colon, value], Input.isInside token = true := by
      simpa using ⟨hinside hname, Input.isInside_of_isMarkOf hcolon, hinside hvalue⟩
    have hlexemes := Input.lexemes_ofTokens_append far hthree
    rw [Input.lexemes_ofTokens_append _ hnear]
    simpa [hname, hvalue] using hlexemes
  have hdone := program_of_parseTokens hparsed
  rw [hshort] at hdone
  have hsame := program_spelledOut hfield hplain hcolon hdone
  rw [← hlong] at hsame
  exact parseTokens_of_done source hsame

/-- The second field of a struct literal is spelled out. -/
theorem parseTokens_spelledOut_second :
    let token (kind : Kind) (text : String) := Token.mk ⟨kind, text⟩ (.start "main")
    let near := [token .identifier "P", token .symbol "\x7b", token .identifier "y",
      token .symbol ","]
    let field := token .identifier "x"
    let far := [token .symbol "\x7d", token .symbol ";"]
    let program : List Statement :=
      [.expression (.structLiteral "P" [("y", .name ⟨"y", []⟩), ("x", .name ⟨"x", []⟩)])]
    parseTokens (near ++ field :: far) none {} = .ok (program, []) ∧
      parseTokens (near ++ field :: token .symbol ":" :: field :: far) none {} =
        .ok (program, []) := by
  intro token near field far program
  have hparsed : parseTokens (near ++ field :: far) none {} = .ok (program, []) := rfl
  have hreaches := @programOutline_reaches_literal {} ⟨.identifier, "P"⟩ ⟨.symbol, "\x7b"⟩
    ⟨rfl, by decide⟩ (by decide) [⟨.identifier, "y"⟩, ⟨.symbol, ","⟩, ⟨.identifier, "x"⟩,
      ⟨.symbol, "\x7d"⟩, ⟨.symbol, ";"⟩] rfl
  have hrounds : RoundsTo (nextField {} 63 "P") [] [⟨.identifier, "y"⟩, ⟨.symbol, ","⟩,
      ⟨.identifier, "x"⟩, ⟨.symbol, "\x7d"⟩, ⟨.symbol, ";"⟩] [("y", .name ⟨"y", []⟩)]
      [⟨.identifier, "x"⟩, ⟨.symbol, "\x7d"⟩, ⟨.symbol, ";"⟩] := .again rfl .here
  have hfield : ShortField {} field.toLexeme (Input.ofTokens far).lexemes
      (near.map Token.toLexeme) :=
    @ShortField.field _ _ _ 63 "P" _ _ [⟨.identifier, "P"⟩] [⟨.identifier, "y"⟩, ⟨.symbol, ","⟩]
      hreaches hrounds rfl rfl
  exact ⟨hparsed, parseTokens_spelledOut (by decide) hparsed hfield (by decide) rfl (by decide) rfl⟩

/-- A field that is a truth value is a name where it stands alone, and a truth value where it is
spelled out. -/
theorem parseTokens_spelledOut_truth_value :
    let token (kind : Kind) (text : String) := Token.mk ⟨kind, text⟩ (.start "main")
    let near := [token .identifier "P", token .symbol "\x7b"]
    let field := token .identifier "true"
    let colon := token .symbol ":"
    let far := [token .symbol "\x7d", token .symbol ";"]
    ShortField {} field.toLexeme (Input.ofTokens far).lexemes (near.map Token.toLexeme) ∧
      parseTokens (near ++ field :: far) none {} =
        .ok ([.expression (.structLiteral "P" [("true", .name ⟨"true", []⟩)])], []) ∧
      parseTokens (near ++ field :: colon :: field :: far) none {} =
        .ok ([.expression (.structLiteral "P" [("true", .boolean true)])], []) ∧
      parseTokens (near ++ field :: colon :: field :: far) none {} ≠
        parseTokens (near ++ field :: far) none {} := by
  intro token near field colon far
  have hreaches := @programOutline_reaches_literal {} ⟨.identifier, "P"⟩ ⟨.symbol, "\x7b"⟩
    ⟨rfl, by decide⟩ (by decide) [⟨.identifier, "true"⟩, ⟨.symbol, "\x7d"⟩, ⟨.symbol, ";"⟩] rfl
  have hfield : ShortField {} field.toLexeme (Input.ofTokens far).lexemes
      (near.map Token.toLexeme) :=
    @ShortField.field _ _ _ 63 "P" [] _ [⟨.identifier, "P"⟩] [] hreaches .here rfl rfl
  have hshort : parseTokens (near ++ field :: far) none {} =
      .ok ([.expression (.structLiteral "P" [("true", .name ⟨"true", []⟩)])], []) := rfl
  have hlong : parseTokens (near ++ field :: colon :: field :: far) none {} =
      .ok ([.expression (.structLiteral "P" [("true", .boolean true)])], []) := rfl
  refine ⟨hfield, hshort, hlong, ?_⟩
  rw [hlong, hshort]
  simp

end BraceLang
