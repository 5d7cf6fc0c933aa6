import BraceLang.Proofs.Spelling.Expressions

/-!
# Accounts of operands and operations

A primary expression is chosen by its first lexeme. Accesses and binary operators extend what stands
on their left: the row that was passed for the left side, followed by what is passed for the
extension, spells the whole. Operations are grouped by their operands alone, so the account of a row
of operands does not depend on its precedence.
-/

namespace BraceLang

open Language Spellings

/-- Whatever was passed for an expression that was held, followed by what is passed, spells the
expression at last. -/
def Outcome.extends (held : Expression) : Outcome Expression :=
  fun last passed _ reports => reports = [] → ∀ row ∈ held.spellings, row ++ passed ∈ last.spellings

/-- Nothing is added to an expression where nothing is passed. -/
theorem Outcome.extends_refl (held : Expression) (rest : List Lexeme) :
    Outcome.extends held held [] rest [] :=
  fun _ row hrow => by rwa [List.append_nil]

/-- An extension of an extension. -/
theorem Outcome.extends_trans {held next last : Expression} {passed more left : List Lexeme}
    {reports later : List Report}
    (hnext : reports = [] → ∀ row ∈ held.spellings, row ++ passed ∈ next.spellings)
    (hlast : Outcome.extends next last more left later) :
    Outcome.extends held last (passed ++ more) left (reports ++ later) := by
  intro hreports row hrow
  obtain ⟨hfirst, hlater⟩ := List.append_eq_nil_iff.mp hreports
  rw [← List.append_assoc]
  exact hlast hlater _ (hnext hfirst row hrow)

variable {levels : Nat}

/-- What extends an expression that is read first is spelled with it. -/
theorem Reply.Accounts.extended {parser : Parser Expression}
    {round : Expression → Parser (Turn Expression)}
    (hparser : ∀ unread, (parser unread).Accounts levels unread (.spells Expression.spellings))
    (hround : ∀ held unread,
      (round held unread).Accounts levels unread (Outcome.ofRound Outcome.extends held))
    (unread : List Lexeme) :
    ((parser >>= Parser.repeating round) unread).Accounts levels unread
      (.spells Expression.spellings) := by
  refine .bind (hparser unread) fun first passed rest reports hfirst => ?_
  refine (Reply.Accounts.repeating hround first rest).mono ?_
  intro last more left later _ hlast hreports
  obtain ⟨hnone, hlater⟩ := List.append_eq_nil_iff.mp hreports
  exact hlast hlater passed (hfirst hnone)

/-- Where no expression begins, a lexeme that is no number is passed and reported. -/
theorem Reply.Accounts.noExpression {unread : List Lexeme}
    (hhead : ∀ lexeme ∈ unread.head?, lexeme.kind ≠ .number) :
    (Parser.noExpression unread).Accounts levels unread (.spells Expression.spellings) := by
  have hreply : Parser.noExpression unread =
      .done (.error (.unexpected unread.head? .expression)) unread.tail
        [⟨unread.length, .unexpected unread.head? .expression⟩] := rfl
  rw [hreply]
  cases unread with
  | nil => exact ⟨[], rfl, fun _ _ hmem => absurd hmem List.not_mem_nil, by simp [Outcome.spells]⟩
  | cons lexeme rest =>
    refine ⟨[lexeme], rfl, fun _ other hother => ?_, by simp [Outcome.spells]⟩
    rw [List.mem_singleton.mp hother]
    exact Lexeme.isReadable_of_kind (hhead lexeme rfl)

/-- A numeral that is next is read, or stops everything. -/
theorem Reply.Accounts.numeral (text : String) (rest : List Lexeme) :
    (Parser.numeral text (⟨.number, text⟩ :: rest)).Accounts levels (⟨.number, text⟩ :: rest)
      (.spells Spellings.numeral) := by
  unfold Parser.numeral
  cases hread : Numeral.read text with
  | ok value =>
    refine ⟨[⟨.number, text⟩], rfl, fun _ lexeme hmem _ => ?_, fun _ => ⟨text, hread, rfl⟩⟩
    rw [List.mem_singleton.mp hmem]
    exact ⟨value, hread⟩
  | error error => exact ⟨error, rfl, ⟨.number, text⟩, List.mem_cons_self, rfl, hread⟩

namespace InsideAccounts

variable {inside : Option Layer} (hinside : InsideAccounts levels inside)
include hinside

/-- An expression that begins with a mark. -/
theorem marked {lexeme : Lexeme} (hmark : lexeme.isMark = true) (literals : Bool)
    (rest : List Lexeme) :
    (Parser.marked inside literals lexeme.text (lexeme :: rest)).Accounts levels (lexeme :: rest)
      (.spells Expression.spellings) := by
  have hspelled {text : String} (htext : lexeme.text = text) : lexeme.isMarkOf [text] = true := by
    simp [Lexeme.isMarkOf, hmark, htext]
  unfold Parser.marked
  split
  · next hopening =>
    rw [Parser.peekSecond_bind]
    split
    · next hclosing =>
      cases rest with
      | nil => simp at hclosing
      | cons closing rest =>
        refine (hinside.functionValue (hspelled hopening) (by simpa using hclosing) rest).mono ?_
        intro value passed _ _ _ hvalue hreports
        obtain ⟨returnType, body, rfl, hpassed⟩ := hvalue hreports
        rw [Expression.spellings]
        exact mem_grouped hpassed
    · exact hinside.group (hspelled hopening) rest
  · split
    · next hopening => exact hinside.array (hspelled hopening) rest
    · cases hoperator : UnaryOperator.ofSpelling? lexeme.text with
      | some operator =>
        have hspelling := UnaryOperator.spelling_of_ofSpelling? hoperator
        exact hinside.unary (hspelled hspelling.symm) literals rest
      | none =>
        refine .noExpression fun other hother hkind => ?_
        obtain rfl : lexeme = other := Option.some.inj hother
        simp [Lexeme.isMark, hkind] at hmark

/-- A primary expression. -/
theorem primary (literals : Bool) (unread : List Lexeme) :
    (Parser.primary inside literals unread).Accounts levels unread
      (.spells Expression.spellings) := by
  have hword {text : String} {kind : Kind} (rest : List Lexeme)
      (hkind : kind = .keyword ∨ kind = .identifier) (hvalue : text = "true" ∨ text = "false") :
      ((Parser.advance >>= fun _ => Pure.pure (Expression.boolean (text == "true")))
        (⟨kind, text⟩ :: rest)).Accounts levels (⟨kind, text⟩ :: rest)
        (.spells Expression.spellings) := by
    have hisWord : Lexeme.isWord ⟨kind, text⟩ = true := by
      rcases hkind with rfl | rfl <;> rfl
    rw [Parser.advance_bind]
    refine .cons (Lexeme.isReadable_of_isWord hisWord) (.pure fun _ => ?_)
    rw [Expression.spellings]
    refine mem_grouped (word_mem ?_)
    rcases hvalue with rfl | rfl <;> simp [Lexeme.isWordOf, hisWord]
  unfold Parser.primary
  rw [Parser.peek_bind]
  cases unread with
  | nil => exact .noExpression (by simp)
  | cons lexeme rest =>
    obtain ⟨kind, text⟩ := lexeme
    cases kind with
    | number =>
      refine .bind (.numeral text rest) fun value passed left reports hvalue => ?_
      refine .pure fun hreports => ?_
      rw [Expression.spellings, List.append_nil]
      exact mem_grouped (hvalue (by simpa using hreports))
    | string =>
      change ((Parser.advance >>= _) _).Accounts _ _ _
      rw [Parser.advance_bind]
      refine .cons (Lexeme.isReadable_of_kind (by simp)) (.pure fun _ => ?_)
      rw [Expression.spellings]
      exact mem_grouped rfl
    | keyword =>
      simp only [List.head?_cons]
      split
      · next hvalue => exact hword rest (.inl rfl) hvalue
      · exact .noExpression (by simp)
    | identifier =>
      simp only [List.head?_cons]
      split
      · next hvalue => exact hword rest (.inr rfl) hvalue
      · simp only [if_true, Parser.advance_bind]
        exact .cons (Lexeme.isReadable_of_kind (by simp)) (hinside.named literals text rest)
    | symbol => exact hinside.marked rfl literals rest
    | operator => exact hinside.marked rfl literals rest
    | endOfInput => exact .noExpression (by simp)

/-- An access to the scope of what stands on its left. -/
theorem nextAccess (scope : Expression) (unread : List Lexeme) :
    (Parser.nextAccess inside scope unread).Accounts levels unread
      (Outcome.ofRound Outcome.extends scope) := by
  unfold Parser.nextAccess
  refine .accept (fun colons rest _ hcolons => ?_) (.pure (Outcome.extends_refl scope unread))
  refine .cons (Lexeme.isReadable_of_isMarkOf hcolons) (.identifier fun name after _ => ?_)
  rw [Parser.nextIsMark_bind]
  split
  · next hopening =>
    obtain ⟨opening, after, rfl, hopening⟩ := Parser.exists_cons_of_head_any hopening
    refine .bind (hinside.arguments hopening after) fun items passed left reports hitems => ?_
    refine .pure ⟨by simp, fun last more final later _ hlast => Outcome.extends_trans ?_ hlast⟩
    intro hreports row hrow
    rw [Expression.spellings, mul_assoc]
    refine mem_grouped (append_mem_mul hrow (cons_mem (mark_mem hcolons) ?_))
    simpa using cons_mem (identifier_mem name) (hitems (by simpa using hreports))
  · refine .pure ⟨by simp, fun last more final later _ hlast => Outcome.extends_trans ?_ hlast⟩
    intro _ row hrow
    rw [Expression.spellings, mul_assoc]
    exact mem_grouped (append_mem_mul hrow (cons_mem (mark_mem hcolons) (identifier_mem name)))

/-- An operand. -/
theorem operand (literals : Bool) (unread : List Lexeme) :
    (Parser.operand inside literals unread).Accounts levels unread
      (.spells Expression.spellings) :=
  .extended (hinside.primary literals) hinside.nextAccess unread

end InsideAccounts

section Rows

variable {behind : Parser Expression}
  (hbehind : ∀ unread, (behind unread).Accounts levels unread (.spells Expression.spellings))
include hbehind

/-- A binary operator and the operand on its right. -/
theorem Reply.Accounts.nextOperand (precedence : Nat) (left : Expression) (unread : List Lexeme) :
    (Parser.nextOperand behind precedence left unread).Accounts levels unread
      (Outcome.ofRound Outcome.extends left) := by
  unfold Parser.nextOperand
  rw [Parser.nextOperator_bind]
  match unread with
  | [] => exact .pure (Outcome.extends_refl left [])
  | lexeme :: rest =>
    simp only [List.head?_cons, Option.bind_some]
    split
    · next hmark =>
      cases hfound : (BinaryOperator.ofSpelling? lexeme.text).filter
        (·.precedence == precedence) with
      | none => exact .pure (Outcome.extends_refl left (lexeme :: rest))
      | some operator =>
        have hspelling : operator.spelling = lexeme.text :=
          BinaryOperator.spelling_of_ofSpelling? (Option.filter_eq_some_iff.mp hfound).1
        have hoperator : lexeme.isMarkOf [operator.spelling] = true := by
          simp [Lexeme.isMarkOf, hmark, hspelling]
        change ((Parser.advance >>= _) _).Accounts _ _ _
        rw [Parser.advance_bind]
        refine .cons (Lexeme.isReadable_of_isMarkOf hoperator) ?_
        refine .bind (hbehind rest) fun right passed after reports hright => ?_
        refine .pure ⟨by simp, fun last more final later _ hlast => Outcome.extends_trans ?_ hlast⟩
        intro hreports row hrow
        rw [Expression.spellings, mul_assoc]
        refine mem_grouped (append_mem_mul hrow (cons_mem (mark_mem hoperator) ?_))
        simpa using hright (by simpa using hreports)
    · exact .pure (Outcome.extends_refl left (lexeme :: rest))

/-- A row of operands with binary operators between them. -/
theorem Reply.Accounts.binary (count : Nat) (unread : List Lexeme) :
    (Parser.binary behind count unread).Accounts levels unread (.spells Expression.spellings) := by
  induction count generalizing unread with
  | zero => exact hbehind unread
  | succ count ih => exact .extended ih (Reply.Accounts.nextOperand ih (6 - count)) unread

end Rows

/-- An expression. -/
theorem InsideAccounts.expression {inside : Option Layer} (hinside : InsideAccounts levels inside)
    (literals : Bool) (unread : List Lexeme) :
    (Parser.expression inside literals unread).Accounts levels unread
      (.spells Expression.spellings) :=
  .binary (hinside.operand literals) 7 unread

end BraceLang
