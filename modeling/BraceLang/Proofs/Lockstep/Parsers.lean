import BraceLang.Proofs.Lockstep.Pairing

/-!
# Parsers in step

A parser is in step on an input and a copy of it if it comes to the same value on the copy wherever
it comes to one on the input without a report, and what it leaves unread is paired again. Nothing is
said where something is reported.

Being in step is composed along parsers: what follows runs on paired inputs again, and a repetition
goes round as often on the copy as it does on the input. Two places need care. A list that may end
with the input comes to its end there although the copy goes on, so nothing is said of it unless
something is left unread; the brace that has to follow makes up for it. And a statement may leave
nothing behind its semicolon.
-/

namespace BraceLang

open BraceLang.Parser

variable {α β σ : Type}

/-- A reply without a report that another reply agrees with, where what is left is related. -/
def Reply.AgreesWith (related : List Lexeme → List Lexeme → Prop) (reply other : Reply α) : Prop :=
  ∀ value rest, reply = .done value rest [] →
    ∃ left, other = .done value left [] ∧ related rest left

section Agreement

variable {middle related : List Lexeme → List Lexeme → Prop} {unread copy : List Lexeme}

/-- A fault agrees with any reply. -/
theorem Reply.Faulty.agreesWith {reply other : Reply α} (hreply : reply.Faulty) :
    reply.AgreesWith related other :=
  fun value rest hdone => absurd hdone (hreply value rest)

/-- What follows replies that agree. -/
theorem Reply.AgreesWith.bind {parser other : Parser α} {next further : α → Parser β}
    (hparser : (parser unread).AgreesWith middle (other copy))
    (hnext : ∀ value rest left, middle rest left →
      (next value rest).AgreesWith related (further value left)) :
    ((parser >>= next) unread).AgreesWith related ((other >>= further) copy) := by
  intro value rest hdone
  obtain ⟨first, between, hfirst, hlast⟩ := exists_of_bind_eq_silent hdone
  obtain ⟨left, hother, hleft⟩ := hparser first between hfirst
  rw [bind_of_silent further hother]
  exact hnext first between left hleft value rest hlast

end Agreement

namespace Parser

/-- A parser that agrees with itself on related inputs and leaves related inputs unread. -/
def InStep (before behind : List Lexeme → List Lexeme → Prop) (parser : Parser α) : Prop :=
  ∀ unread copy, before unread copy → (parser unread).AgreesWith behind (parser copy)

/-- A parser that is in step on an input and its copy, and leaves such inputs unread. -/
abbrev Keeps (pairing : Pairing) (parser : Parser α) : Prop :=
  InStep pairing.Paired pairing.Paired parser

/-- A parser that is in step but may leave nothing, behind a semicolon. -/
abbrev Ends (pairing : Pairing) (parser : Parser α) : Prop :=
  InStep pairing.Paired pairing.After parser

/-- A parser that is in step unless it leaves nothing. -/
def KeepsSome (pairing : Pairing) (parser : Parser α) : Prop :=
  ∀ unread copy, pairing.Paired unread copy → ∀ value rest, parser unread = .done value rest [] →
    rest = [] ∨ ∃ left, parser copy = .done value left [] ∧ pairing.Paired rest left

variable {before middle behind : List Lexeme → List Lexeme → Prop} {pairing : Pairing}
  {parser : Parser α} {next : α → Parser β}

namespace InStep

/-- What follows is in step where the parser leaves off. -/
theorem bind (hparser : InStep before middle parser)
    (hnext : ∀ value, InStep middle behind (next value)) : InStep before behind (parser >>= next) :=
  fun unread copy hpaired => .bind (hparser unread copy hpaired) hnext

/-- Reading nothing is in step. -/
theorem pure (value : α) : InStep before before (Pure.pure value : Parser α) := by
  rintro unread copy hbefore _ _ ⟨⟩
  exact ⟨copy, rfl, hbefore⟩

/-- Less may be said about what is left. -/
theorem mono (hparser : InStep before middle parser)
    (hbehind : ∀ rest left, middle rest left → behind rest left) :
    InStep before behind parser := by
  intro unread copy hbefore value rest hdone
  obtain ⟨left, hother, hleft⟩ := hparser unread copy hbefore value rest hdone
  exact ⟨left, hother, hbehind rest left hleft⟩

/-- A parser that comes to no value without a report. -/
theorem of_faulty (hparser : ∀ unread, (parser unread).Faulty) : InStep before behind parser :=
  fun unread _ _ => (hparser unread).agreesWith

/-- Either way behind a question. -/
theorem either {question : Parser Bool} {yes no : Parser α}
    (hquestion : InStep before middle question) (hyes : InStep middle behind yes)
    (hno : InStep middle behind no) :
    InStep before behind (question >>= fun answer => if answer = true then yes else no) := by
  refine hquestion.bind fun answer => ?_
  split
  · exact hyes
  · exact hno

end InStep

namespace Keeps

/-- What is left is paired, as it may be behind any lexeme. -/
theorem ends (hparser : Keeps pairing parser) : Ends pairing parser :=
  hparser.mono fun _ _ => .inl

/-- A parser that needs something to read is in step behind any lexeme. -/
theorem after (hparser : Keeps pairing parser) (hend : (parser []).Faulty) :
    InStep pairing.After pairing.Paired parser := by
  rintro unread copy (hpaired | ⟨rfl, -⟩)
  · exact hparser unread copy hpaired
  · exact hend.agreesWith

end Keeps

section Questions

/-- A question that has the same answer on a copy. -/
private theorem keeps_of_answer {question : Parser α} (answer : List Lexeme → α)
    (hquestion : ∀ unread, question unread = .done (answer unread) unread [])
    (hsame : ∀ unread copy, pairing.Paired unread copy → answer copy = answer unread) :
    Keeps pairing question := by
  intro unread copy hpaired value rest hdone
  rw [hquestion] at hdone
  obtain ⟨rfl, rfl, -⟩ := Reply.done.inj hdone
  exact ⟨copy, by rw [hquestion, hsame unread copy hpaired], hpaired⟩

/-- Asking for a mark is in step. -/
theorem nextIsMark_keeps (marks : List String) : Keeps pairing (nextIsMark marks) :=
  keeps_of_answer _ (fun _ => rfl) fun _ _ hpaired =>
    Pairing.head_any hpaired (Pairing.blind_isMarkOf marks)

/-- So is asking for the end of the input, where it is not yet come. -/
theorem atEnd_keeps : Keeps pairing atEnd :=
  keeps_of_answer _ (fun _ => rfl) fun _ _ hpaired => Pairing.head_isNone hpaired

/-- A mark that is next may be passed. -/
theorem InStep.onMark {marks : List String} (hmarks : ";" ∉ marks) {yes no : Parser α}
    (hyes : InStep pairing.Within behind yes) (hno : InStep pairing.Paired behind no) :
    InStep pairing.Paired behind
      (nextIsMark marks >>= fun answer => if answer = true then yes else no) := by
  intro unread copy hpaired
  rw [nextIsMark_bind, nextIsMark_bind, Pairing.head_any hpaired (Pairing.blind_isMarkOf marks)]
  split
  · next hmark =>
    exact hyes unread copy (Pairing.within_of_mark hpaired hmarks hmark)
  · exact hno unread copy hpaired

/-- A word that is next may be passed. -/
theorem InStep.onWord {words : List String} {yes no : Parser α}
    (hyes : InStep pairing.Within behind yes) (hno : InStep pairing.Paired behind no) :
    InStep pairing.Paired behind
      (nextIsWord words >>= fun answer => if answer = true then yes else no) := by
  intro unread copy hpaired
  rw [nextIsWord_bind, nextIsWord_bind, Pairing.head_any hpaired (Pairing.blind_isWordOf words)]
  split
  · next hword =>
    exact hyes unread copy (Pairing.within_of_any hpaired (Pairing.skips_isWordOf words) hword)
  · exact hno unread copy hpaired

/-- An opening parenthesis that is next may be passed. -/
theorem InStep.onFunctionValue {yes no : Parser α} (hyes : InStep pairing.Within behind yes)
    (hno : InStep pairing.Paired behind no) :
    InStep pairing.Paired behind
      (nextIsFunctionValue >>= fun answer => if answer = true then yes else no) := by
  intro unread copy hpaired
  rw [nextIsFunctionValue_bind, nextIsFunctionValue_bind,
    Pairing.second_same hpaired (by decide) (Pairing.blind_isMarkOf [")"])]
  split
  · next hmarks =>
    have hopening := (Bool.and_eq_true _ _ ▸ hmarks).1
    exact hyes unread copy (Pairing.within_of_mark hpaired (by decide) hopening)
  · exact hno unread copy hpaired

/-- A binary operator that is next may be passed. -/
theorem InStep.onOperator {precedence : Nat} {next : Option BinaryOperator → Parser α}
    (hsome : ∀ operator, InStep pairing.Within behind (next (some operator)))
    (hnone : InStep pairing.Paired behind (next none)) :
    InStep pairing.Paired behind (nextOperator precedence >>= next) := by
  intro unread copy hpaired
  rw [nextOperator_bind, nextOperator_bind, Pairing.head_operator hpaired]
  generalize hfound : unread.head?.bind _ = found
  cases found with
  | some operator =>
    have hmark := head_of_nextOperator hfound
    exact hsome operator unread copy (Pairing.within_of_mark hpaired (by decide) hmark)
  | none => exact hnone unread copy hpaired

/-- A keyword that is next may be an identifier in the copy. Any other lexeme is the same there. -/
theorem InStep.onPeek {next : Option Lexeme → Parser α}
    (hnone : InStep pairing.Paired behind (next none))
    (hsame : ∀ lexeme unread copy, pairing.Paired unread copy → unread.head? = some lexeme →
      (next (some lexeme) unread).AgreesWith behind (next (some lexeme) copy))
    (hkeyword : ∀ text unread copy, pairing.Within unread copy →
      (next (some ⟨.keyword, text⟩) unread).AgreesWith behind
        (next (some ⟨.identifier, text⟩) copy)) :
    InStep pairing.Paired behind (peek >>= next) := by
  intro unread copy hpaired
  rw [peek_bind, peek_bind]
  have hhead := pairing.head hpaired
  generalize hnext : unread.head? = first at hhead ⊢
  generalize copy.head? = other at hhead ⊢
  cases hhead with
  | none => exact hnone unread copy hpaired
  | some hother =>
    cases hother with
    | same => exact hsame _ unread copy hpaired hnext
    | keyword text =>
      exact hkeyword text unread copy (Pairing.within_of_head hpaired hnext rfl)

end Questions

section Lexemes

/-- Passing a lexeme may leave nothing. -/
theorem advance_ends : Ends pairing advance := by
  rintro unread copy hpaired _ _ ⟨⟩
  exact ⟨copy.tail, rfl, Pairing.after_tail hpaired⟩

/-- It leaves something if the lexeme is no semicolon. -/
theorem advance_within : InStep pairing.Within pairing.Paired advance := by
  rintro unread copy hwithin _ _ ⟨⟩
  exact ⟨copy.tail, rfl, hwithin.tail⟩

/-- A numeral is read in step where no semicolon is next. -/
theorem numeral_within (text : String) :
    InStep pairing.Within pairing.Paired (numeral text) := by
  intro unread copy hwithin value rest hdone
  unfold numeral at hdone ⊢
  cases hread : Numeral.read text with
  | ok number =>
    rw [hread] at hdone
    obtain ⟨rfl, rfl, -⟩ := Reply.done.inj hdone
    exact ⟨copy.tail, rfl, hwithin.tail⟩
  | error error =>
    rw [hread] at hdone
    cases hdone

/-- A parser that passes the next lexeme if that passes a test, and fails otherwise. -/
private theorem inStep_of_apply {test : Lexeme → Bool} (value : Option Lexeme → α)
    {expected : Expected}
    (hparser : ∀ unread, parser unread =
      if unread.head?.any test then .done (value unread.head?) unread.tail []
      else .failed ⟨unread.length, .unexpected unread.head? expected⟩ unread [])
    (hcopy : ∀ lexeme copy : Lexeme, lexeme.Relaxed copy → test lexeme = true →
      test copy = true ∧ value (some copy) = value (some lexeme))
    (hbehind : ∀ unread copy, pairing.Paired unread copy → unread.head?.any test = true →
      behind unread.tail copy.tail) :
    InStep pairing.Paired behind parser := by
  intro unread copy hpaired result rest hdone
  rw [hparser] at hdone
  split at hdone
  · next hany =>
    obtain ⟨rfl, rfl, -⟩ := Reply.done.inj hdone
    have hrest := hbehind unread copy hpaired hany
    obtain ⟨lexeme, others, rfl, hlexeme⟩ := exists_cons_of_head_any hany
    obtain ⟨first, left, rfl, hfirst⟩ := Pairing.exists_cons hpaired
    obtain ⟨htest, hvalue⟩ := hcopy lexeme first hfirst hlexeme
    refine ⟨left, ?_, hrest⟩
    have hother : (first :: left).head?.any test = true := htest
    rw [hparser, if_pos hother]
    exact congrArg (Reply.done · left []) hvalue
  · cases hdone

/-- Behind what passes a test that no semicolon passes the inputs are paired. -/
private theorem behind_skips {test : Lexeme → Bool} (htest : Pairing.Skips test)
    {unread copy : List Lexeme} (hpaired : pairing.Paired unread copy)
    (hany : unread.head?.any test = true) : pairing.Paired unread.tail copy.tail :=
  (Pairing.within_of_any hpaired htest hany).tail

/-- An identifier is read in step. -/
theorem identifier_keeps (expected : Expected) : Keeps pairing (identifier expected) := by
  refine inStep_of_apply (fun next => (next.map (·.text)).getD "")
    (fun unread => identifier_apply unread expected) ?_ fun _ _ => ?_
  · rintro lexeme copy hcopy hkind
    obtain rfl := hcopy.eq_of_kind (by simp_all)
    exact ⟨hkind, rfl⟩
  · refine behind_skips fun lexeme hkind => Lexeme.isMarkOf_of_not_isMark ?_
    simp_all [Lexeme.isMark]

/-- So is any word. -/
theorem word_keeps (expected : Expected) : Keeps pairing (word expected) := by
  refine inStep_of_apply (fun next => (next.map (·.text)).getD "")
    (fun unread => word_apply unread expected) ?_ fun _ _ => behind_skips Pairing.skips_isWord
  rintro lexeme copy hcopy hword
  exact ⟨hcopy.isWord_eq.trans hword, by simp [hcopy.text_eq]⟩

/-- Passing a mark. -/
private theorem expectMark_inStep {mark : String} {expected : Expected}
    (hbehind : ∀ unread copy, pairing.Paired unread copy →
      unread.head?.any (·.isMarkOf [mark]) = true → behind unread.tail copy.tail) :
    InStep pairing.Paired behind (expectMark mark expected) :=
  inStep_of_apply (fun _ => ()) (fun unread => expectMark_apply unread mark expected)
    (fun _ _ hcopy hmark => ⟨(hcopy.isMarkOf_eq [mark]).trans hmark, rfl⟩) hbehind

/-- So is a mark that has to be next and is no semicolon. -/
theorem expectMark_keeps {mark : String} (hmark : ";" ∉ [mark]) (expected : Expected) :
    Keeps pairing (expectMark mark expected) :=
  expectMark_inStep fun _ _ => behind_skips (Pairing.skips_isMarkOf hmark)

/-- The semicolon at the end of a statement may be the last lexeme. -/
theorem terminator_ends : Ends pairing terminator :=
  expectMark_inStep fun _ _ hpaired _ => Pairing.after_tail hpaired

/-- A word that has to be next is read in step. -/
theorem expectWord_keeps (word : String) (expected : Expected) :
    Keeps pairing (expectWord word expected) :=
  inStep_of_apply (fun _ => ()) (fun unread => expectWord_apply unread word expected)
    (fun _ _ hcopy hword => ⟨(hcopy.isWordOf_eq [word]).trans hword, rfl⟩) fun _ _ =>
      behind_skips (Pairing.skips_isWordOf [word])

/-- No mark is passed at the end. -/
theorem expectMark_end (mark : String) (expected : Expected) :
    (expectMark mark expected []).Faulty := by
  intro value rest hdone
  cases hdone

/-- So is a mark that may be next and is no semicolon. -/
theorem accept_keeps {marks : List String} (hmarks : ";" ∉ marks) :
    Keeps pairing (accept marks) :=
  .onMark hmarks (advance_within.bind fun _ => .pure true) (.pure false)

/-- Any other mark that may be next may be the last lexeme. -/
theorem accept_ends (marks : List String) : Ends pairing (accept marks) :=
  InStep.either (nextIsMark_keeps marks)
    (advance_ends.bind fun _ => .pure true) (Keeps.ends (.pure false))

end Lexemes

end Parser

end BraceLang
