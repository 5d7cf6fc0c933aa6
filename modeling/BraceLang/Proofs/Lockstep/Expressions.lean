import BraceLang.Proofs.Lockstep.Rounds

/-!
# Types and expressions in step

No type and no expression ends with a semicolon, so each of them leaves paired inputs. Constructs in
brackets are in step where their opening mark is next.
-/

namespace BraceLang

open BraceLang.Parser

/-- A layer whose parsers are in step. -/
structure Layer.InStep (pairing : Pairing) (layer : Layer) : Prop where
  type : Keeps pairing layer.type
  expression (literals : Bool) : Keeps pairing (layer.expression literals)
  operand (literals : Bool) : Keeps pairing (layer.operand literals)
  statement : Ends pairing layer.statement

/-- What is inside a construct, if anything is, is in step. -/
def InsideInStep (pairing : Pairing) (inside : Option Layer) : Prop :=
  ∀ layer ∈ inside, layer.InStep pairing

namespace InsideInStep

variable {pairing : Pairing} {inside : Option Layer} (hinside : InsideInStep pairing inside)
include hinside

section Types

/-- Type arguments are read in step. -/
theorem typeArguments : Keeps pairing (Parser.typeArguments inside) := by
  have hlist : Keeps pairing (BraceLang.nested inside fun layer => Parser.separated layer.type) :=
    .nested fun layer hlayer => .separated (hinside layer hlayer).type
  exact hlist.bind fun types => (expectMark_keeps (by decide) _).bind fun _ => .pure types

/-- So are types. -/
theorem type : Keeps pairing (Parser.type inside) := by
  refine (word_keeps _).bind fun name => (accept_keeps (by decide)).either ?_ (.pure _)
  exact hinside.typeArguments.bind fun arguments => .pure _

/-- So are annotations. -/
theorem annotation : Keeps pairing (Parser.annotation inside) :=
  (accept_keeps (by decide)).either (hinside.type.bind fun _ => .pure _) (.pure _)

end Types

section Expressions

/-- A block is read in step, since the brace behind it has to follow. -/
theorem block : Keeps pairing (Parser.block inside) := by
  refine KeepsSome.closed "\x7d" (.nested fun layer hlayer => ?_) (by decide) fun _ => .pure _
  refine .after (expectMark_keeps (by decide) _) fun _ => ?_
  exact .statements (hinside layer hlayer).statement _

/-- The arguments of a call are read in step where no semicolon is next. -/
theorem arguments : InStep pairing.Within pairing.Paired (Parser.arguments inside) := by
  refine .nested fun layer hlayer => advance_within.bind fun _ => ?_
  refine .bind (.listed ((hinside layer hlayer).expression true) _) fun items => ?_
  exact (expectMark_keeps (by decide) _).bind fun _ => .pure items

/-- A mark has to follow behind the two parentheses. -/
theorem functionValue : InStep pairing.Within pairing.Paired (Parser.functionValue inside) := by
  refine advance_within.bind fun _ => advance_ends.bind fun _ => ?_
  refine ((expectMark_keeps (by decide) _).after (expectMark_end _ _)).bind fun _ => ?_
  exact hinside.type.bind fun returnType => hinside.block.bind fun body => .pure _

/-- So is an expression in parentheses. -/
theorem group : InStep pairing.Within pairing.Paired (Parser.group inside) := by
  refine .nested fun layer hlayer => advance_within.bind fun _ => ?_
  refine ((hinside layer hlayer).expression true).bind fun value => ?_
  exact (expectMark_keeps (by decide) _).bind fun _ => .pure value

/-- So is an array. -/
theorem array : InStep pairing.Within pairing.Paired (Parser.array inside) := by
  refine .nested fun layer hlayer => advance_within.bind fun _ => ?_
  refine .bind (.listed ((hinside layer hlayer).expression true) _) fun items => ?_
  exact (expectMark_keeps (by decide) _).bind fun _ => .pure _

/-- So is a unary operation. -/
theorem unary (literals : Bool) (operator : UnaryOperator) :
    InStep pairing.Within pairing.Paired (Parser.unary inside literals operator) := by
  refine .nested fun layer hlayer => advance_within.bind fun _ => ?_
  exact ((hinside layer hlayer).operand literals).bind fun operand => .pure _

omit hinside in
/-- A field of a struct literal. -/
theorem literalField {layer : Layer} (hlayer : layer.InStep pairing) (struct : String)
    (given : List (String × Expression)) :
    Keeps pairing (Parser.literalField layer struct given) := by
  unfold Parser.literalField
  have hreject (unread : List Lexeme) :
      (reject .fieldName unread : Reply (String × Expression)).Faulty :=
    fun _ _ hdone => nomatch hdone
  refine .onPeek (.of_faulty hreject) (fun lexeme unread copy hpaired hhead => ?_)
    fun text unread copy hwithin => (hreject unread).agreesWith
  dsimp only
  split
  · next hkind =>
    split
    · exact Reply.Faulty.agreesWith fun _ _ hdone => nomatch hdone
    · have hmark : lexeme.isMark = false := by simp [Lexeme.isMark, hkind]
      refine InStep.bind advance_within (fun _ => ?_) unread copy
        (Pairing.within_of_head hpaired hhead (Lexeme.isMarkOf_of_not_isMark hmark))
      exact (accept_keeps (by decide)).either ((hlayer.expression true).bind fun _ => .pure _)
        (.pure _)
  · exact (hreject unread).agreesWith

/-- So is a struct literal behind its name. -/
theorem structLiteral (name : String) :
    InStep pairing.Within pairing.Paired (Parser.structLiteral inside name) := by
  refine .nested fun layer hlayer => advance_within.bind fun _ => ?_
  have hfields := KeepsSome.upTo (literalField (hinside layer hlayer) name) [","] "\x7d"
  exact hfields.closed "\x7d" (by decide) fun fields => .pure _

/-- A name is read in step with the arguments behind it, if there are any. -/
theorem called (name : Name) : Keeps pairing (Parser.called inside name) :=
  .onMark (by decide) (hinside.arguments.bind fun _ => .pure _) (.pure _)

/-- So is a name with whatever may belong to it. -/
theorem named (literals : Bool) (name : String) :
    Keeps pairing (Parser.named inside literals name) := by
  intro unread copy hpaired
  unfold Parser.named
  rw [nextIsMark_bind, nextIsMark_bind,
    Pairing.head_any hpaired (Pairing.blind_isMarkOf ["\x7b"])]
  split
  · next hbrace =>
    have hopening := (Bool.and_eq_true_iff.mp hbrace).2
    exact hinside.structLiteral name unread copy
      (Pairing.within_of_mark hpaired (by decide) hopening)
  · rw [nextAreTypeArguments_bind, nextAreTypeArguments_bind,
      Pairing.second_same hpaired (by decide) Pairing.blind_isWord]
    split
    · next hgeneric =>
      have hopening := (Bool.and_eq_true_iff.mp (Bool.and_eq_true_iff.mp hgeneric).1).1
      refine InStep.bind advance_within (fun _ => ?_) unread copy
        (Pairing.within_of_mark hpaired (by decide) hopening)
      exact hinside.typeArguments.bind fun arguments => hinside.called ⟨name, arguments⟩
    · exact hinside.called ⟨name, []⟩ unread copy hpaired

/-- What begins with a mark is read in step where that is no semicolon. -/
theorem marked (literals : Bool) (mark : String) :
    InStep pairing.Within pairing.Paired (Parser.marked inside literals mark) := by
  unfold Parser.marked
  split
  · intro unread copy hwithin
    rw [peekSecond_bind, peekSecond_bind, hwithin.second_any (Pairing.blind_isMarkOf [")"])]
    split
    · exact hinside.functionValue unread copy hwithin
    · exact hinside.group unread copy hwithin
  · split
    · exact hinside.array
    · split
      · exact hinside.unary literals _
      · exact .of_faulty Parser.noExpression_faulty

/-- A primary expression is read in step: one that begins with a semicolon is reported. -/
theorem primary (literals : Bool) : Keeps pairing (Parser.primary inside literals) := by
  unfold Parser.primary
  have hliteral (value : Expression) :
      InStep pairing.Within pairing.Paired (advance >>= fun _ => pure value) :=
    advance_within.bind fun _ => .pure value
  refine .onPeek (.of_faulty Parser.noExpression_faulty) (fun lexeme unread copy hpaired hhead => ?_)
    fun text unread copy hwithin => ?_
  · rcases lexeme with ⟨kind, text⟩
    have hwithin := Pairing.within_of_head hpaired hhead
    cases kind with
    | number =>
      exact InStep.bind (numeral_within text) (fun _ => .pure _) unread copy (hwithin rfl)
    | string => exact hliteral _ unread copy (hwithin rfl)
    | endOfInput => exact (Parser.noExpression_faulty unread).agreesWith
    | symbol | operator =>
      by_cases hsemicolon : text = ";"
      · subst hsemicolon
        exact (Parser.noExpression_faulty unread).agreesWith
      · have hother := hwithin (by simp [Lexeme.isMarkOf, hsemicolon])
        exact hinside.marked literals text unread copy hother
    | keyword | identifier =>
      dsimp only
      split
      · exact hliteral _ unread copy (hwithin rfl)
      · split
        · exact InStep.bind advance_within (fun _ => hinside.named literals text) unread copy
            (hwithin rfl)
        · exact (Parser.noExpression_faulty unread).agreesWith
  · dsimp only
    split
    · exact hliteral _ unread copy hwithin
    · exact (Parser.noExpression_faulty unread).agreesWith

/-- An operand is read in step. -/
theorem operand (literals : Bool) : Keeps pairing (Parser.operand inside literals) := by
  unfold Parser.operand
  refine (hinside.primary literals).bind fun first => .repeating (fun scope => ?_) first
  exact (accept_keeps (by decide)).either ((identifier_keeps _).bind fun _ =>
    .onMark (by decide) (hinside.arguments.bind fun _ => .pure _) (.pure _)) (.pure _)

/-- So are rows of operands with operators between them. -/
theorem binary (literals : Bool) (count : Nat) :
    Keeps pairing (Parser.binary (Parser.operand inside literals) count) := by
  induction count with
  | zero => exact hinside.operand literals
  | succ count ih =>
    unfold Parser.binary
    refine ih.bind fun first => .repeating (fun left => ?_) first
    exact .onOperator (fun operator => advance_within.bind fun _ => ih.bind fun _ => .pure _)
      (.pure _)

/-- And so is an expression. -/
theorem expression (literals : Bool) : Keeps pairing (Parser.expression inside literals) :=
  hinside.binary literals _

end Expressions

end InsideInStep

end BraceLang
