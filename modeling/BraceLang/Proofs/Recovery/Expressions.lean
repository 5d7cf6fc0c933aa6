import BraceLang.Proofs.Recovery.Stretch
import BraceLang.Proofs.Spelling.Operations

/-!
# Types and expressions in a stretch

A stretch has no brackets, so nothing in it is read in parentheses, in a list or in a block. A type
ends before the semicolon of the stretch. An expression may take that semicolon, but only as a
lexeme that begins no expression; then it ends there, since the program behind the stretch does not
go on with it.
-/

namespace BraceLang

open BraceLang.Parser

variable {α : Type} {program : List Lexeme}

namespace Parser

/-- A parser that passes the next lexeme if it passes a test which no semicolon passes, and fails
before it otherwise. -/
private theorem stays_of_apply {parser : Parser α} {test : Lexeme → Bool} {value : α}
    {report : Report} {unread : List Lexeme}
    (hparser : parser unread =
      if unread.head?.any test then .done value unread.tail [] else .failed report unread [])
    (htest : ∀ lexeme, test lexeme = true → lexeme.isMarkOf [";"] = false)
    (hunread : Stretch program unread) :
    (parser unread).Lands program fun _ => Stretch program := by
  rw [hparser]
  split
  · next hhead => exact hunread.tail_of_head hhead htest
  · exact .inl hunread

/-- An identifier is no semicolon. -/
theorem identifier_stays (expected : Expected) : (identifier expected).Stays program := by
  refine fun unread => stays_of_apply (identifier_apply unread expected) fun lexeme hkind => ?_
  exact Lexeme.isMarkOf_of_isWord (by simp_all [Lexeme.isWord])

/-- A word is no semicolon. -/
theorem word_stays (expected : Expected) : (word expected).Stays program :=
  fun unread => stays_of_apply (word_apply unread expected) fun _ => Lexeme.isMarkOf_of_isWord

/-- So is a keyword. -/
theorem expectWord_stays (text : String) (expected : Expected) :
    (expectWord text expected).Stays program :=
  fun unread => stays_of_apply (expectWord_apply unread text expected) fun _ =>
    Lexeme.isMarkOf_of_isWordOf

/-- Another mark is no semicolon. -/
theorem expectMark_stays {mark : String} (hmark : mark ≠ ";") (expected : Expected) :
    (expectMark mark expected).Stays program :=
  fun unread => stays_of_apply (expectMark_apply unread mark expected) fun _ hlexeme =>
    Lexeme.isMarkOf_semicolon hlexeme (by simpa using hmark.symm)

/-- A bracket is not found in a stretch. -/
theorem expectMark_never {mark : String} (hmark : mark ∈ brackets) (expected : Expected) :
    (expectMark mark expected).Brings program (Stretch program) fun _ _ => False := by
  intro unread hunread
  rw [expectMark_apply, hunread.head_any (by simpa using hmark)]
  exact .inl hunread

/-- A mark that may be there is passed within the stretch, unless it is a semicolon. -/
theorem accept_stays {marks : List String} (hmarks : ";" ∉ marks) :
    (accept marks).Stays program := by
  intro unread hunread
  rw [accept_apply]
  split
  · next hhead =>
    exact hunread.tail_of_head hhead fun _ hlexeme => Lexeme.isMarkOf_semicolon hlexeme hmarks
  · exact hunread

/-- No bracket is next in a stretch. -/
theorem nextIsMark_no {marks : List String} (hmarks : marks ⊆ brackets) :
    (nextIsMark marks).Brings program (Stretch program) fun answer rest =>
      answer = false ∧ Stretch program rest :=
  fun _ hunread => ⟨hunread.head_any hmarks, hunread⟩

/-- Behind a lexeme that is not the semicolon of the stretch. -/
theorem advance_brings :
    advance.Brings program (fun unread => Stretch program unread.tail) fun _ => Stretch program :=
  fun _ => id

/-- A numeral is passed, so the stretch has to go on behind it. -/
theorem numeral_brings (text : String) :
    (numeral text).Brings program (fun unread => Stretch program unread.tail)
      fun _ => Stretch program := by
  intro unread htail
  unfold numeral
  cases Numeral.read text with
  | ok value => exact htail
  | error error => trivial

namespace Brings

/-- Where nothing is inside, the parser fails and passes nothing. -/
theorem nested {inside : Option Layer} {parser : Layer → Parser α}
    {start : List Lexeme → Prop} {goal : α → List Lexeme → Prop}
    (hstart : ∀ unread, start unread → Stretch program unread)
    (hparser : ∀ layer ∈ inside, (parser layer).Brings program start goal) :
    (BraceLang.nested inside parser).Brings program start goal := by
  cases inside with
  | none =>
    intro unread hunread
    change Reached program (behindGroup unread)
    rw [(hstart unread hunread).behindGroup]
    exact .inl (hstart unread hunread)
  | some layer => exact hparser layer rfl

/-- Items with commas between them. -/
theorem separated {item : Parser α} (hitem : item.Stays program) :
    (Parser.separated item).Stays program := by
  have hround (items : List α) : (nextItem item items).Brings program (Stretch program)
      (Turning (Stretch program) fun _ => Stretch program) :=
    either (accept_stays (by decide)) (bind hitem fun _ => pure fun _ => id) (pure fun _ => id)
  exact bind hitem fun first => bind (repeating hround [first]) fun _ => pure fun _ => id

end Brings

end Parser

/-- A layer whose types stay in a stretch and whose operands take nothing from the program. -/
structure Layer.Halts (program : List Lexeme) (layer : Layer) : Prop where
  type : layer.type.Stays program
  operand (literals : Bool) : (layer.operand literals).Halts program

/-- What is inside a construct, if anything is, takes nothing from the program. -/
def InsideHalts (program : List Lexeme) (inside : Option Layer) : Prop :=
  ∀ layer ∈ inside, layer.Halts program

namespace InsideHalts

variable {inside : Option Layer} (hinside : InsideHalts program inside)
include hinside

section Types

/-- Type arguments end before the semicolon. -/
theorem typeArguments : (Parser.typeArguments inside).Stays program := by
  have hlist : (nested inside fun layer => separated layer.type).Stays program :=
    .nested (fun _ => id) fun layer hlayer => .separated (hinside layer hlayer).type
  exact hlist.bind fun types => .bind (expectMark_stays (by decide) _) fun _ => .pure fun _ => id

/-- So does a type. -/
theorem type : (Parser.type inside).Stays program := by
  have harguments (name : String) : (do
      let arguments ← Parser.typeArguments inside
      return TypeExpr.mk name arguments).Stays program :=
    hinside.typeArguments.bind fun _ => .pure fun _ => id
  refine (word_stays _).bind fun name => ?_
  exact .either (accept_stays (by decide)) (harguments name) (.pure fun _ => id)

/-- So does an annotation. -/
theorem annotation : (Parser.annotation inside).Stays program := by
  have hsome : (do return some (← Parser.type inside)).Stays program :=
    hinside.type.bind fun _ => .pure fun _ => id
  exact .either (accept_stays (by decide)) hsome (.pure fun _ => id)

end Types

section Primary

omit hinside in
/-- No call is read behind a name. -/
theorem called (name : Name) : (Parser.called inside name).Stays program :=
  .no (nextIsMark_no (by decide)) (.pure fun _ => id)

/-- Behind a name nothing but type arguments is read. -/
theorem named (literals : Bool) (name : String) :
    (Parser.named inside literals name).Stays program := by
  unfold Parser.named
  refine .bind (nextIsMark_no (by decide)) fun brace unread => ?_
  rintro ⟨rfl, hunread⟩
  rw [Bool.and_false, if_neg Bool.false_ne_true, nextAreTypeArguments_bind]
  split
  · next hgeneric =>
    simp only [Bool.and_eq_true] at hgeneric
    have htail : Stretch program unread.tail :=
      hunread.tail_of_head hgeneric.1.1 fun _ hangle =>
        Lexeme.isMarkOf_semicolon hangle (by decide)
    rw [advance_bind]
    exact Brings.bind hinside.typeArguments (fun _ => called _) _ htail
  · exact called _ unread hunread

omit hinside in
/-- A lexeme that begins no expression is passed, even if it is the semicolon. -/
theorem noExpression : Parser.noExpression.Halts program := by
  intro unread hunread
  obtain ⟨lexeme, rest, rfl⟩ := hunread.exists_cons
  exact hunread.behind

/-- A unary operation; its operator is no semicolon. -/
theorem unary (literals : Bool) (operator : UnaryOperator) :
    (Parser.unary inside literals operator).Brings program
      (fun unread => Stretch program unread ∧ Stretch program unread.tail)
      fun _ => Reached program := by
  refine .nested (fun _ => And.left) fun layer hlayer unread hunread => ?_
  refine advance_brings.bind (fun _ => ?_) unread hunread.2
  exact ((hinside layer hlayer).operand literals).bind fun _ => .pure fun _ => id

/-- A mark begins a unary operation, or it begins no expression. -/
theorem marked (literals : Bool) {lexeme : Lexeme} {rest : List Lexeme}
    (hmark : lexeme.isMark = true) (hunread : Stretch program (lexeme :: rest)) :
    (Parser.marked inside literals lexeme.text (lexeme :: rest)).Lands program
      fun _ => Reached program := by
  have hbracket (mark : String) (hmem : mark ∈ brackets) : lexeme.text ≠ mark := by
    rintro rfl
    have hno := hunread.noBracket
    simp [Lexeme.isMarkOf, hmark, hmem] at hno
  unfold Parser.marked
  rw [if_neg (hbracket "(" (by decide)), if_neg (hbracket "[" (by decide))]
  cases hoperator : UnaryOperator.ofSpelling? lexeme.text with
  | none => exact noExpression _ hunread
  | some operator =>
    have hspelling := UnaryOperator.spelling_of_ofSpelling? hoperator
    have hrest : Stretch program rest := by
      refine hunread.goesOn ?_
      rw [Lexeme.isMarkOf, ← hspelling]
      cases operator <;> simp [UnaryOperator.spelling]
    exact hinside.unary literals operator _ ⟨hunread, hrest⟩

/-- A primary expression. -/
theorem primary (literals : Bool) : (Parser.primary inside literals).Halts program := by
  intro unread hunread
  obtain ⟨⟨kind, text⟩, rest, rfl⟩ := hunread.exists_cons
  have hrest (hother : Lexeme.isMark ⟨kind, text⟩ = false) : Stretch program rest :=
    hunread.goesOn (Lexeme.isMarkOf_of_not_isMark hother)
  unfold Parser.primary
  rw [peek_bind]
  cases kind with
  | number => exact Brings.bind (numeral_brings text) (fun _ => .pure fun _ => .inl) _ (hrest rfl)
  | string => exact .inl (hrest rfl)
  | symbol | operator => exact hinside.marked literals rfl hunread
  | endOfInput => exact noExpression _ hunread
  | keyword | identifier =>
    dsimp only [List.head?_cons]
    split
    · exact .inl (hrest rfl)
    · split
      · rw [advance_bind]
        exact (hinside.named literals text).mono (fun _ _ => .inl) _ (hrest rfl)
      · exact noExpression _ hunread

end Primary

section Operations

variable (hbegun : WellBegun program)
include hbegun

omit hinside in
/-- A scope access stands in the stretch, up to its name. -/
theorem nextAccess (scope : Expression) : (Parser.nextAccess inside scope).Brings program
    (Reached program) (Brings.Turning (Reached program) fun _ => Reached program) := by
  intro unread hunread
  unfold Parser.nextAccess
  rw [accept_bind]
  split
  · next hmark =>
    have htail := hunread.of_mark hbegun hmark (by decide) (by decide)
    refine Brings.bind (identifier_stays _) (fun _ => ?_) _ htail
    exact .no (nextIsMark_no (by decide)) (.pure fun _ => .inl)
  · exact hunread

/-- An operand takes the semicolon at most, and goes on behind it with no scope access. -/
theorem operand (literals : Bool) : (Parser.operand inside literals).Halts program :=
  .bind (hinside.primary literals) fun first => .repeating (nextAccess hbegun) first

omit hinside in
/-- A binary operator stands in the stretch, and so does the beginning of what is behind it. -/
theorem nextOperand {behind : Parser Expression} (hbehind : behind.Halts program)
    (precedence : Nat) (left : Expression) :
    (Parser.nextOperand behind precedence left).Brings program (Reached program)
      (Brings.Turning (Reached program) fun _ => Reached program) := by
  intro unread hunread
  unfold Parser.nextOperand
  rw [nextOperator_bind]
  cases hfound : unread.head?.bind fun lexeme =>
      if lexeme.isMark then
        (BinaryOperator.ofSpelling? lexeme.text).filter (·.precedence == precedence)
      else none with
  | none => exact hunread
  | some operator =>
    have hmark := head_of_nextOperator hfound
    have htail := hunread.of_mark hbegun hmark
      (List.subset_append_right [";", "\x7b", "::"] _) (by decide)
    refine advance_brings.bind (fun _ => ?_) unread htail
    exact hbehind.bind fun _ => .pure fun _ => id

/-- Operands between operators take no more, at every precedence. -/
theorem binary (literals : Bool) (count : Nat) :
    (Parser.binary (Parser.operand inside literals) count).Halts program := by
  induction count with
  | zero => exact hinside.operand hbegun literals
  | succ count ih => exact .bind ih fun first => .repeating (nextOperand hbegun ih _) first

/-- Neither does an expression. -/
theorem expression (literals : Bool) : (Parser.expression inside literals).Halts program :=
  hinside.binary hbegun literals 7

end Operations

end InsideHalts

end BraceLang
