import BraceLang.Proofs.Conditions.Alike

/-!
# Expressions in front of a semicolon and of a block

An expression that may begin with struct literals outside all groups, but does not, is read as one
that may not. Whatever is inside a group is read alike in both: struct literals may begin there
again, and the group ends in front of what the row stands in front of.
-/

namespace BraceLang

open BraceLang.Parser

/-- The operands on the layer inside a construct are alike. -/
def InsideAlike (endings : Endings) (inside : Option Layer) : Prop :=
  ∀ layer ∈ inside, Alike endings (layer.operand true) (layer.operand false)

/-- What a parser needs to know of what is inside it. -/
structure Comparison (endings : Endings) (inside : Option Layer) (levels : Nat) : Type 1 where
  accounts : InsideAccounts levels inside
  outlines : InsideOutlines inside levels
  operands : InsideAlike endings inside

namespace Comparison

variable {endings : Endings} {inside : Option Layer} {levels : Nat}
  (comparison : Comparison endings inside levels) {lexeme : Lexeme} {rest : List Lexeme}
include comparison

section Groups

/-- The arguments of a call are read alike, since a brace among them is inside the parentheses. -/
theorem arguments (hopening : lexeme.isMarkOf ["("] = true)
    (hrow : BracesInside (lexeme :: rest)) :
    AlikeAt endings (lexeme :: rest) (Parser.arguments inside) (Parser.arguments inside) := by
  refine .of_sealed comparison.outlines.arguments_sealed hrow
    fun passed left items hsplit hdone => ?_
  refine (comparison.accounts.arguments hopening _).even hdone hsplit fun hspelled => ?_
  exact (Expression.listSpellings_even items).parenthesized _ (hspelled rfl)

/-- So is an expression in parentheses. -/
theorem group (hopening : lexeme.isMarkOf ["("] = true) (hrow : BracesInside (lexeme :: rest)) :
    AlikeAt endings (lexeme :: rest) (Parser.group inside) (Parser.group inside) := by
  refine .of_sealed comparison.outlines.group_sealed hrow fun passed left value hsplit hdone => ?_
  refine (comparison.accounts.group hopening _).even hdone hsplit fun hspelled => ?_
  exact value.spellings_even _ (hspelled rfl)

/-- And so is an array. -/
theorem array (hopening : lexeme.isMarkOf ["["] = true) (hrow : BracesInside (lexeme :: rest)) :
    AlikeAt endings (lexeme :: rest) (Parser.array inside) (Parser.array inside) := by
  refine .of_sealed comparison.outlines.array_sealed hrow fun passed left value hsplit hdone => ?_
  refine (comparison.accounts.array hopening _).even hdone hsplit fun hspelled => ?_
  exact value.spellings_even _ (hspelled rfl)

/-- So is a function value, whose parentheses and whose block are even. -/
theorem functionValue {closing : Lexeme} (hopening : lexeme.isMarkOf ["("] = true)
    (hclosing : closing.isMarkOf [")"] = true) (hrow : BracesInside (lexeme :: closing :: rest)) :
    AlikeAt endings (lexeme :: closing :: rest) (Parser.functionValue inside)
      (Parser.functionValue inside) := by
  refine .of_sealed comparison.outlines.functionValue_sealed hrow
    fun passed left value hsplit hdone => ?_
  refine (comparison.accounts.functionValue hopening hclosing _).even hdone hsplit
    fun hspelled => ?_
  obtain ⟨returnType, body, -, hpassed⟩ := hspelled rfl
  have hbody := (Statement.rowSpellings_even body).braced
  exact returnType.spellings_even.functionValue hbody _ hpassed

/-- The angle bracket is in front of what is passed. -/
theorem typeArguments (hbracket : lexeme.isMarkOf ["<"] = true) (hrow : BracesInside rest) :
    AlikeAt endings rest (Parser.typeArguments inside) (Parser.typeArguments inside) := by
  refine .of_sealed comparison.outlines.typeArguments_sealed hrow
    fun passed left types hsplit hdone => ?_
  have hweight : lexeme.weight = 0 := Lexeme.weight_of_isMarkOf hbracket
  have hwhole : lexeme :: (rest ++ [endings.semicolon]) = lexeme :: passed ++ left :=
    congrArg (lexeme :: ·) hsplit
  have heven := (comparison.accounts.typeArguments hbracket _).even hdone hwhole
    fun hspelled => TypeExpr.argumentSpellings_even types _ (hspelled rfl)
  rwa [balance_cons, hweight, Int.zero_add] at heven

end Groups

/-- A name is read alike whether it is called or not. -/
theorem called (name : Name) :
    Alike endings (Parser.called inside name) (Parser.called inside name) := by
  intro row hrow
  refine .nextIsMark (by decide) ?_
  split
  · next hhead =>
    obtain ⟨opening, rest, rfl, hopening⟩ := exists_cons_of_head_any hhead
    exact .bind (fun _ => .pure _) (comparison.arguments hopening hrow)
      fun _ _ hleft => .pure hleft _
  · exact .pure hrow _

end Comparison

section Questions

variable {α : Type} {endings : Endings} {row rest : List Lexeme} {lexeme : Lexeme}

/-- A word behind the angle bracket is in the row. -/
theorem AlikeAt.nextAreTypeArguments {next later : Bool → Parser α}
    (hnext : AlikeAt endings row
      (next (row.head?.any (·.isMarkOf ["<"]) && row[1]?.any Lexeme.isWord))
      (later (row.head?.any (·.isMarkOf ["<"]) && row[1]?.any Lexeme.isWord))) :
    AlikeAt endings row (Parser.nextAreTypeArguments >>= next)
      (Parser.nextAreTypeArguments >>= later) := by
  have hmarks : ∀ mark ∈ ["<"], mark ∉ [";", "\x7b"] := by decide
  obtain ⟨hsemicolon, hblock⟩ := endings.head_any row hmarks
  have hnot {lexeme : Lexeme} {text : String} (hmark : lexeme.isMarkOf [text] = true) :
      lexeme.isWord = false :=
    Bool.eq_false_iff.mpr fun hword => by
      rw [Lexeme.isMarkOf_of_isWord hword] at hmark
      cases hmark
  intro left value hdone
  rw [nextAreTypeArguments_bind, hsemicolon] at hdone
  rw [nextAreTypeArguments_bind, hblock]
  match row with
  | [] => exact hnext hdone
  | [lexeme] =>
    -- the lexeme behind the only one of the row is how it ends
    simp only [List.cons_append, List.nil_append, Endings.block, List.getElem?_cons_succ,
      List.getElem?_cons_zero, Option.any_some, hnot endings.isSemicolon,
      hnot endings.isOpening] at hdone ⊢
    exact hnext hdone
  | first :: second :: rest => exact hnext hdone

/-- A mark behind the next lexeme is in the row. -/
theorem AlikeAt.secondIsMark {marks : List String} {yes no affirmed denied : Parser α}
    (hmarks : ∀ mark ∈ marks, mark ∉ [";", "\x7b"])
    (hyes : rest.head?.any (·.isMarkOf marks) = true →
      AlikeAt endings (lexeme :: rest) yes affirmed)
    (hno : AlikeAt endings (lexeme :: rest) no denied) :
    AlikeAt endings (lexeme :: rest)
      (Parser.peekSecond >>= fun second => if second.any (·.isMarkOf marks) then yes else no)
      (Parser.peekSecond >>= fun second =>
        if second.any (·.isMarkOf marks) then affirmed else denied) := by
  obtain ⟨hsemicolon, hblock⟩ := endings.head_any rest hmarks
  intro left value hdone
  rw [peekSecond_bind, List.cons_append, List.getElem?_cons_succ, ← List.head?_eq_getElem?,
    hsemicolon] at hdone
  rw [peekSecond_bind, List.cons_append, List.getElem?_cons_succ, ← List.head?_eq_getElem?, hblock]
  split at hdone
  · next hsecond =>
    rw [if_pos hsecond]
    exact hyes hsecond hdone
  · next hsecond =>
    rw [if_neg hsecond]
    exact hno hdone

/-- The binary operator that is next is in the row. -/
theorem AlikeAt.nextOperator {precedence : Nat} {next later : Option BinaryOperator → Parser α}
    (hrow : BracesInside row)
    (hsome : ∀ operator lexeme rest, row = lexeme :: rest → BracesInside rest →
      AlikeAt endings row (next (some operator)) (later (some operator)))
    (hnone : AlikeAt endings row (next none) (later none)) :
    AlikeAt endings row (Parser.nextOperator precedence >>= next)
      (Parser.nextOperator precedence >>= later) := by
  have hnot {lexeme : Lexeme} {text : String} (hmark : lexeme.isMarkOf [text] = true)
      (htext : BinaryOperator.ofSpelling? text = none) :
      (if lexeme.isMark then
        (BinaryOperator.ofSpelling? lexeme.text).filter (·.precedence == precedence)
      else none) = none := by
    rw [if_pos (Lexeme.of_isMarkOf_singleton hmark).1, (Lexeme.of_isMarkOf_singleton hmark).2,
      htext]
    rfl
  intro left value hdone
  rw [nextOperator_bind] at hdone ⊢
  cases row with
  | nil =>
    change next (if endings.semicolon.isMark then _ else none) _ = _ at hdone
    rw [hnot endings.isSemicolon (by decide)] at hdone
    change _ ∧ later (if endings.opening.isMark then _ else none) _ = _
    rw [hnot endings.isOpening (by decide)]
    exact hnone hdone
  | cons lexeme rest =>
    simp only [List.cons_append, List.head?_cons, Option.bind_some] at hdone ⊢
    split at hdone
    · next hmark =>
      rw [if_pos hmark]
      cases hfound : (BinaryOperator.ofSpelling? lexeme.text).filter
        (·.precedence == precedence) with
      | none =>
        rw [hfound] at hdone
        exact hnone hdone
      | some operator =>
        rw [hfound] at hdone
        have hspelling : operator.spelling = lexeme.text :=
          BinaryOperator.spelling_of_ofSpelling? (Option.filter_eq_some_iff.mp hfound).1
        have hoperator : lexeme.isMarkOf [operator.spelling] = true := by
          simp [Lexeme.isMarkOf, hmark, hspelling]
        have hweight : lexeme.weight = 0 :=
          Lexeme.weight_eq_zero hoperator (by cases operator <;> decide)
        exact hsome operator lexeme rest rfl (hrow.tail hweight) hdone
    · next hmark =>
      rw [if_neg hmark]
      exact hnone hdone

/-- A numeral of the row. -/
theorem AlikeAt.numeral (hweight : lexeme.weight = 0) (hrow : BracesInside (lexeme :: rest))
    (text : String) :
    AlikeAt endings (lexeme :: rest) (Parser.numeral text) (Parser.numeral text) := by
  intro left value hdone
  unfold Parser.numeral at hdone ⊢
  cases hread : Numeral.read text with
  | ok number =>
    rw [hread] at hdone
    obtain ⟨rfl, hleft, -⟩ := Reply.done.inj hdone
    obtain rfl : rest = left := List.append_cancel_right hleft
    exact ⟨hrow.tail hweight, rfl⟩
  | error error =>
    rw [hread] at hdone
    cases hdone

end Questions

namespace Comparison

variable {endings : Endings} {inside : Option Layer} {levels : Nat}
  (comparison : Comparison endings inside levels)
include comparison

/-- No brace is behind the name, so it does not matter whether a struct literal may begin. -/
theorem named (name : String) {row : List Lexeme} (hrow : BracesInside row)
    (hbrace : row.head?.any (·.isMarkOf ["\x7b"]) = false) :
    AlikeAt endings row (Parser.named inside true name) (Parser.named inside false name) := by
  have hnone : (row ++ [endings.semicolon]).head?.any (·.isMarkOf ["\x7b"]) = false := by
    cases row with
    | nil => exact Lexeme.isMarkOf_disjoint endings.isSemicolon (by decide)
    | cons lexeme rest => exact hbrace
  intro left value hdone
  unfold Parser.named at hdone ⊢
  rw [nextIsMark_bind, hnone] at hdone
  rw [nextIsMark_bind]
  refine AlikeAt.nextAreTypeArguments ?_ hdone
  split
  · next hgeneric =>
    obtain ⟨bracket, rest, rfl, hbracket⟩ := exists_cons_of_head_any
      (Bool.and_eq_true_iff.mp (Bool.and_eq_true_iff.mp hgeneric).1).1
    have hrest := hrow.tail (Lexeme.weight_eq_zero hbracket (by decide))
    have hcalled (types : List TypeExpr) : (Parser.called inside ⟨name, types⟩).Runs :=
      (comparison.outlines.called ⟨name, types⟩ : Outline ⟨true, levels, true⟩ none _).runs
    refine .advance (.bind hcalled (comparison.typeArguments hbracket hrest) fun types => ?_)
    exact comparison.called ⟨name, types⟩
  · exact comparison.called ⟨name, []⟩ hrow

/-- The operand of a unary operator is read one level further in. -/
theorem unary (operator : UnaryOperator) {lexeme : Lexeme} {rest : List Lexeme}
    (hweight : lexeme.weight = 0) (hrow : BracesInside (lexeme :: rest)) :
    AlikeAt endings (lexeme :: rest) (Parser.unary inside true operator)
      (Parser.unary inside false operator) := by
  unfold Parser.unary
  cases inside with
  | none => exact .of_faulty fun _ _ hdone => nomatch hdone
  | some layer =>
    have hoperand := comparison.operands layer rfl (hrow.tail hweight)
    exact .advance (.bind (fun _ => .pure _) hoperand fun _ _ hleft => .pure hleft _)

/-- An expression that begins with a mark. -/
theorem marked {lexeme : Lexeme} {rest : List Lexeme} (hmark : lexeme.isMark = true)
    (hrow : BracesInside (lexeme :: rest)) :
    AlikeAt endings (lexeme :: rest) (Parser.marked inside true lexeme.text)
      (Parser.marked inside false lexeme.text) := by
  have hspelled {text : String} (htext : lexeme.text = text) : lexeme.isMarkOf [text] = true := by
    simp [Lexeme.isMarkOf, hmark, htext]
  unfold Parser.marked
  split
  · next hopening =>
    refine .secondIsMark (by decide) (fun hclosing => ?_)
      (comparison.group (hspelled hopening) hrow)
    obtain ⟨closing, behind, rfl, hclosing⟩ := exists_cons_of_head_any hclosing
    exact comparison.functionValue (hspelled hopening) hclosing hrow
  · split
    · next hopening => exact comparison.array (hspelled hopening) hrow
    · cases hoperator : UnaryOperator.ofSpelling? lexeme.text with
      | some operator =>
        have hspelling := UnaryOperator.spelling_of_ofSpelling? hoperator
        have hweight : lexeme.weight = 0 :=
          Lexeme.weight_eq_zero (hspelled hspelling.symm) (by cases operator <;> decide)
        exact comparison.unary operator hweight hrow
      | none => exact .of_faulty (noExpression_faulty _)

/-- A word that is a truth value or a name. -/
theorem primary_word {kind : Kind} {text : String} {rest : List Lexeme}
    (hkind : kind = .keyword ∨ kind = .identifier) (hrow : BracesInside (⟨kind, text⟩ :: rest)) :
    AlikeAt endings (⟨kind, text⟩ :: rest)
      (if text = "true" ∨ text = "false" then do
        Parser.advance
        return .boolean (text == "true")
      else if kind = .identifier then do
        Parser.advance
        Parser.named inside true text
      else Parser.noExpression)
      (if text = "true" ∨ text = "false" then do
        Parser.advance
        return .boolean (text == "true")
      else if kind = .identifier then do
        Parser.advance
        Parser.named inside false text
      else Parser.noExpression) := by
  have hweight : Lexeme.weight ⟨kind, text⟩ = 0 := by
    rcases hkind with rfl | rfl <;> exact Lexeme.weight_of_not_isMark rfl
  split
  · exact .advance (.pure (hrow.tail hweight) _)
  · split
    · next hidentifier =>
      exact .advance (comparison.named text (hrow.tail hweight) (hrow.not_brace hidentifier))
    · exact .of_faulty (noExpression_faulty _)

/-- A primary expression. -/
theorem primary : Alike endings (Parser.primary inside true) (Parser.primary inside false) := by
  intro row hrow left value hdone
  unfold Parser.primary at hdone ⊢
  rw [peek_bind] at hdone ⊢
  cases row with
  | nil =>
    -- no expression begins with a semicolon
    have htext := (Lexeme.of_isMarkOf_singleton endings.isSemicolon).2
    have hmarked : Parser.marked inside true endings.semicolon.text = noExpression := by
      rw [htext]
      rfl
    rcases Lexeme.kind_cases_of_isMarkOf endings.isSemicolon with hkind | hkind <;>
      simp only [List.nil_append, List.head?_cons, hkind, hmarked] at hdone <;>
      exact absurd hdone (noExpression_faulty _ _ _)
  | cons lexeme rest =>
    obtain ⟨kind, text⟩ := lexeme
    cases kind with
    | number =>
      have hnumeral : AlikeAt endings _ _ _ := .numeral (Lexeme.weight_of_not_isMark rfl) hrow text
      exact hnumeral.bind (fun _ => .pure _) (fun _ _ hleft => .pure hleft _) hdone
    | string =>
      exact AlikeAt.advance
        (.pure (hrow.tail (Lexeme.weight_of_not_isMark rfl)) (Expression.string text)) hdone
    | keyword => exact comparison.primary_word (.inl rfl) hrow hdone
    | identifier => exact comparison.primary_word (.inr rfl) hrow hdone
    | symbol => exact comparison.marked rfl hrow hdone
    | operator => exact comparison.marked rfl hrow hdone
    | endOfInput => exact absurd hdone (noExpression_faulty _ _ _)

/-- An access to the scope of what stands on its left. -/
theorem nextAccess (scope : Expression) :
    Alike endings (Parser.nextAccess inside scope) (Parser.nextAccess inside scope) := by
  intro row hrow
  refine .accept hrow (by decide) (fun behind hbehind => ?_) (.pure hrow _)
  refine .identifier hbehind fun name after hafter => ?_
  refine .nextIsMark (by decide) ?_
  split
  · next hhead =>
    obtain ⟨opening, rest, rfl, hopening⟩ := exists_cons_of_head_any hhead
    exact .bind (fun _ => .pure _) (comparison.arguments hopening hafter)
      fun _ _ hleft => .pure hleft _
  · exact .pure hafter _

/-- An operand. -/
theorem operand : Alike endings (Parser.operand inside true) (Parser.operand inside false) := by
  have hruns (scope : Expression) : (Parser.nextAccess inside scope).Runs :=
    (comparison.outlines.nextAccess scope : Outline ⟨true, levels, true⟩ none _).runs
  exact fun row hrow => .bind (fun first => .repeating hruns first) (comparison.primary hrow)
    fun first => .repeating hruns comparison.nextAccess first

end Comparison

section Rows

variable {endings : Endings} {behind other : Parser Expression}

/-- A binary operator and the operand on its right. -/
theorem Alike.nextOperand (hbehind : Alike endings behind other) (precedence : Nat)
    (left : Expression) :
    Alike endings (Parser.nextOperand behind precedence left)
      (Parser.nextOperand other precedence left) := by
  intro row hrow
  refine .nextOperator hrow (fun operator lexeme rest hsplit hrest => ?_) (.pure hrow _)
  subst hsplit
  exact .advance (.bind (fun _ => .pure _) (hbehind hrest) fun _ _ hafter => .pure hafter _)

/-- A row of operands with binary operators between them. -/
theorem Alike.binary {levels : Nat} (outline : Outline ⟨true, levels, true⟩ none behind)
    (hbehind : Alike endings behind other) (count : Nat) :
    Alike endings (Parser.binary behind count) (Parser.binary other count) := by
  induction count with
  | zero => exact hbehind
  | succ count ih =>
    have hruns (left : Expression) : (Parser.nextOperand (Parser.binary behind count)
        (6 - count) left).Runs :=
      (InsideOutlines.nextOperand (InsideOutlines.binary outline count) (6 - count) left).runs
    exact fun row hrow => .bind (fun first => .repeating hruns first) (ih hrow)
      fun first => .repeating hruns (.nextOperand ih (6 - count)) first

end Rows

/-- An expression that may begin with a struct literal and one that may not. -/
theorem Comparison.expression {endings : Endings} {inside : Option Layer} {levels : Nat}
    (comparison : Comparison endings inside levels) :
    Alike endings (Parser.expression inside true) (Parser.expression inside false) :=
  .binary comparison.outlines.operand comparison.operand 7

/-- What is inside a construct is compared on every level. -/
def layerInside_comparison (endings : Endings) (options : Options) :
    (levels : Nat) → Comparison endings (layerInside options levels) levels
  | 0 => ⟨layerInside_accounts options 0, .nothing, fun layer hlayer => by cases hlayer⟩
  | levels + 1 =>
    have comparison := layerInside_comparison endings options levels
    ⟨layerInside_accounts options _, insideOutlines options _, fun layer hlayer => by
      obtain rfl := Option.some.inj hlayer
      exact comparison.operand⟩

end BraceLang
