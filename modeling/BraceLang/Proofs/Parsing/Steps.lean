import BraceLang.Parser.Program
import BraceLang.Proofs.Parsing.Marks

/-!
# Running parsers one step at a time

A parser that looks at one lexeme reports nothing, so what follows it runs directly on what it
leaves unread. The equations of this file carry out one such step each. A repetition is a row of
rounds; the equations for it do not mention how many rounds it may take.
-/

namespace BraceLang

/-- The same reply with a function applied to its value. -/
def Reply.map {α β : Type} (function : α → β) : Reply α → Reply β
  | .done value unread reports => .done (function value) unread reports
  | .failed report unread reports => .failed report unread reports
  | .stopped halt => .stopped halt

/-- One function behind another. -/
theorem Reply.map_map {α β γ : Type} (second : β → γ) (first : α → β) (reply : Reply α) :
    (reply.map first).map second = reply.map fun value => second (first value) := by
  cases reply <;> rfl

/-- Reports in front do not depend on the value. -/
theorem Reply.map_after {α β : Type} (function : α → β) (reports : List Report)
    (reply : Reply α) :
    (reply.after reports).map function = (reply.map function).after reports := by
  cases reply <;> rfl

namespace Parser

variable {α β σ : Type} {unread rest : List Lexeme} {reports : List Report}

/-- Reading nothing leaves everything unread. -/
theorem pure_apply (value : α) (unread : List Lexeme) :
    (pure value : Parser α) unread = .done value unread [] := rfl

/-- What follows a value runs on what is unread behind it. -/
theorem bind_of_done {parser : Parser α} {value : α} (next : α → Parser β)
    (hdone : parser unread = .done value rest reports) :
    (parser >>= next) unread = (next value rest).after reports := by
  change Parser.bind parser next unread = _
  simp only [Parser.bind, hdone]

/-- Nothing follows a failure. -/
theorem bind_of_failed {parser : Parser α} {report : Report} (next : α → Parser β)
    (hfailed : parser unread = .failed report rest reports) :
    (parser >>= next) unread = .failed report rest reports := by
  change Parser.bind parser next unread = _
  simp only [Parser.bind, hfailed]

/-- Nothing follows a stop. -/
theorem bind_of_stopped {parser : Parser α} {halt : Halt} (next : α → Parser β)
    (hstopped : parser unread = .stopped halt) : (parser >>= next) unread = .stopped halt := by
  change Parser.bind parser next unread = _
  simp only [Parser.bind, hstopped]

/-- A parser that reports nothing hands over to what follows it. -/
theorem bind_of_silent {parser : Parser α} {value : α} (next : α → Parser β)
    (hdone : parser unread = .done value rest []) :
    (parser >>= next) unread = next value rest := by
  rw [bind_of_done next hdone, Reply.after_nil]

/-- What follows a parser without a report leaves the reports of the parser. -/
theorem bind_of_done_silent {parser : Parser α} {next : α → Parser β} {value : α} {last : β}
    {middle : List Lexeme} (hdone : parser unread = .done value middle reports)
    (hnext : next value middle = .done last rest []) :
    (parser >>= next) unread = .done last rest reports := by
  rw [bind_of_done next hdone, hnext, Reply.after, List.append_nil]

/-- What comes to a value behind a parser has one from the parser. -/
theorem exists_of_bind_eq_done {parser : Parser α} {next : α → Parser β} {value : β}
    (hdone : (parser >>= next) unread = .done value rest reports) :
    ∃ first middle earlier later, parser unread = .done first middle earlier ∧
      next first middle = .done value rest later ∧ reports = earlier ++ later := by
  cases hrun : parser unread with
  | done first middle earlier =>
    rw [bind_of_done next hrun] at hdone
    cases hrest : next first middle with
    | done last behind later =>
      rw [hrest] at hdone
      obtain ⟨rfl, rfl, rfl⟩ := Reply.done.inj hdone
      exact ⟨first, middle, earlier, later, rfl, hrest, rfl⟩
    | failed | stopped =>
      rw [hrest] at hdone
      cases hdone
  | failed report middle earlier =>
    rw [bind_of_failed next hrun] at hdone
    cases hdone
  | stopped halt =>
    rw [bind_of_stopped next hrun] at hdone
    cases hdone

/-- What comes to a value without a report does so without any on the way. -/
theorem exists_of_bind_eq_silent {parser : Parser α} {next : α → Parser β} {value : β}
    (hdone : (parser >>= next) unread = .done value rest []) :
    ∃ first middle, parser unread = .done first middle [] ∧
      next first middle = .done value rest [] := by
  obtain ⟨first, middle, earlier, later, hfirst, hlast, hreports⟩ := exists_of_bind_eq_done hdone
  obtain ⟨rfl, rfl⟩ := List.append_eq_nil_iff.mp hreports.symm
  exact ⟨first, middle, hfirst, hlast⟩

/-- What follows may be put together first. -/
theorem bind_assoc {γ : Type} (parser : Parser α) (next : α → Parser β) (last : β → Parser γ) :
    (parser >>= next) >>= last = parser >>= fun value => next value >>= last := by
  funext unread
  cases hreply : parser unread with
  | done value middle earlier =>
    rw [bind_of_done _ hreply]
    have hfirst := bind_of_done next hreply
    cases hsecond : next value middle with
    | done result behind later =>
      rw [hsecond] at hfirst
      rw [bind_of_done last hfirst, bind_of_done last hsecond, Reply.after_after]
    | failed report behind later =>
      rw [hsecond] at hfirst
      rw [bind_of_failed last hfirst, bind_of_failed last hsecond, Reply.after]
    | stopped halt =>
      rw [hsecond] at hfirst
      rw [bind_of_stopped last hfirst, bind_of_stopped last hsecond, Reply.after]
  | failed report middle earlier =>
    rw [bind_of_failed last (bind_of_failed next hreply), bind_of_failed _ hreply]
  | stopped halt =>
    rw [bind_of_stopped last (bind_of_stopped next hreply), bind_of_stopped _ hreply]

/-- What follows a parser that has come as far as another one comes, with reports in front, follows
that one. -/
theorem bind_of_after {parser other : Parser α} (next : α → Parser β)
    (hreply : parser unread = (other rest).after reports) :
    (parser >>= next) unread = ((other >>= next) rest).after reports := by
  cases hother : other rest with
  | done value last later =>
    rw [hother, Reply.after] at hreply
    rw [bind_of_done next hreply, bind_of_done next hother, Reply.after_after]
  | failed report last later =>
    rw [hother, Reply.after] at hreply
    rw [bind_of_failed next hreply, bind_of_failed next hother, Reply.after]
  | stopped halt =>
    rw [hother, Reply.after] at hreply
    rw [bind_of_stopped next hreply, bind_of_stopped next hother, Reply.after]

/-- A function applied to what a parser comes to. -/
theorem map_apply (function : α → β) (parser : Parser α) (unread : List Lexeme) :
    (function <$> parser) unread = (parser unread).map function := by
  change Parser.bind parser (fun value => pure (function value)) unread = _
  unfold Parser.bind
  cases parser unread with
  | done value rest reports => exact congrArg _ (List.append_nil reports)
  | failed | stopped => rfl

/-- A function applied to a value. -/
theorem map_of_done {parser : Parser α} {value : α} (function : α → β)
    (hdone : parser unread = .done value rest reports) :
    (function <$> parser) unread = .done (function value) rest reports := by
  rw [map_apply, hdone, Reply.map]

/-- A function is not applied behind a stop. -/
theorem map_of_stopped {parser : Parser α} {halt : Halt} (function : α → β)
    (hstopped : parser unread = .stopped halt) : (function <$> parser) unread = .stopped halt := by
  rw [map_apply, hstopped, Reply.map]

section Primitives

variable (unread : List Lexeme)

/-- Looking hands on the next token, and everything is still unread. -/
@[simp] theorem peek_bind (next : Option Lexeme → Parser β) :
    (peek >>= next) unread = next unread.head? unread :=
  bind_of_silent next rfl

/-- Looking one further hands on the token behind it. -/
@[simp] theorem peekSecond_bind (next : Option Lexeme → Parser β) :
    (peekSecond >>= next) unread = next unread[1]? unread :=
  bind_of_silent next rfl

/-- Advancing leaves what stands behind the next token. -/
@[simp] theorem advance_bind (next : Unit → Parser β) :
    (advance >>= next) unread = next () unread.tail :=
  bind_of_silent next rfl

/-- Asking for a mark answers from the next token alone. -/
@[simp] theorem nextIsMark_bind (marks : List String) (next : Bool → Parser β) :
    (nextIsMark marks >>= next) unread = next (unread.head?.any (·.isMarkOf marks)) unread :=
  bind_of_silent next rfl

/-- So does asking for a word. -/
@[simp] theorem nextIsWord_bind (words : List String) (next : Bool → Parser β) :
    (nextIsWord words >>= next) unread = next (unread.head?.any (·.isWordOf words)) unread :=
  bind_of_silent next rfl

/-- The end is where nothing is left unread. -/
@[simp] theorem atEnd_bind (next : Bool → Parser β) :
    (atEnd >>= next) unread = next unread.head?.isNone unread :=
  bind_of_silent next rfl

/-- An operator is asked for at one precedence only. -/
@[simp] theorem nextOperator_bind (precedence : Nat) (next : Option BinaryOperator → Parser β) :
    (nextOperator precedence >>= next) unread =
      next (unread.head?.bind fun lexeme =>
        if lexeme.isMark then
          (BinaryOperator.ofSpelling? lexeme.text).filter (·.precedence == precedence)
        else none) unread :=
  bind_of_silent next rfl

/-- Type arguments begin with `<` and a name. -/
@[simp] theorem nextAreTypeArguments_bind (next : Bool → Parser β) :
    (nextAreTypeArguments >>= next) unread =
      next (unread.head?.any (·.isMarkOf ["<"]) && unread[1]?.any Lexeme.isWord) unread :=
  bind_of_silent next rfl

/-- A function value begins with `()`. -/
@[simp] theorem nextIsFunctionValue_bind (next : Bool → Parser β) :
    (nextIsFunctionValue >>= next) unread =
      next (unread.head?.any (·.isMarkOf ["("]) && unread[1]?.any (·.isMarkOf [")"])) unread :=
  bind_of_silent next rfl

/-- A mark that may be there is read when it is, and never reported. -/
theorem accept_apply (marks : List String) :
    accept marks unread =
      if unread.head?.any (·.isMarkOf marks) then .done true unread.tail []
      else .done false unread [] := by
  unfold accept
  rw [nextIsMark_bind]
  split <;> rfl

/-- What follows such a mark is told whether it was there. -/
@[simp] theorem accept_bind (marks : List String) (next : Bool → Parser β) :
    (accept marks >>= next) unread =
      if unread.head?.any (·.isMarkOf marks) then next true unread.tail
      else next false unread := by
  split <;> rename_i h <;> exact bind_of_silent next (by simp [accept_apply, h])

/-- A mark that has to be there is read, or reported where it is missing. -/
theorem expectMark_apply (mark : String) (expected : Expected) :
    expectMark mark expected unread =
      if unread.head?.any (·.isMarkOf [mark]) then .done () unread.tail []
      else .failed ⟨unread.length, .unexpected unread.head? expected⟩ unread [] := by
  unfold expectMark
  rw [nextIsMark_bind]
  split <;> rfl

/-- So is a word. -/
theorem expectWord_apply (word : String) (expected : Expected) :
    expectWord word expected unread =
      if unread.head?.any (·.isWordOf [word]) then .done () unread.tail []
      else .failed ⟨unread.length, .unexpected unread.head? expected⟩ unread [] := by
  unfold expectWord
  rw [nextIsWord_bind]
  split <;> rfl

/-- So is an identifier, whose text is handed on. -/
theorem identifier_apply (expected : Expected) :
    identifier expected unread =
      if unread.head?.any (·.kind == .identifier) then
        .done ((unread.head?.map (·.text)).getD "") unread.tail []
      else .failed ⟨unread.length, .unexpected unread.head? expected⟩ unread [] := by
  unfold identifier
  rw [peek_bind]
  cases unread with
  | nil => rfl
  | cons lexeme rest =>
    by_cases hkind : lexeme.kind = .identifier <;> simp [hkind, reject, pure_apply]

/-- So is a name, which may be a keyword as well. -/
theorem word_apply (expected : Expected) :
    word expected unread =
      if unread.head?.any (·.isWord) then
        .done ((unread.head?.map (·.text)).getD "") unread.tail []
      else .failed ⟨unread.length, .unexpected unread.head? expected⟩ unread [] := by
  unfold word
  rw [peek_bind]
  cases unread with
  | nil => rfl
  | cons lexeme rest =>
    by_cases hword : lexeme.isWord = true <;> simp [hword, reject, pure_apply]

end Primitives

/-- Passing open groups loses nothing. -/
theorem behindGroups_suffix (depth : Nat) (unread : List Lexeme) :
    behindGroups depth unread <:+ unread := by
  induction unread generalizing depth with
  | nil => exact List.suffix_refl _
  | cons lexeme rest ih =>
    unfold behindGroups
    split
    · exact (ih _).trans (List.suffix_cons lexeme rest)
    · split
      · split
        · exact List.suffix_cons lexeme rest
        · exact (ih _).trans (List.suffix_cons lexeme rest)
      · exact (ih _).trans (List.suffix_cons lexeme rest)

/-- Passing a group loses nothing. -/
theorem behindGroup_suffix (unread : List Lexeme) : behindGroup unread <:+ unread := by
  cases unread with
  | nil => exact List.suffix_refl _
  | cons lexeme rest =>
    simp only [behindGroup]
    split
    · exact (behindGroups_suffix 1 rest).trans (List.suffix_cons lexeme rest)
    · exact List.suffix_refl _

/-- Where nothing is reported nothing is recovered. -/
theorem done_of_recovered {parser : Parser Statement} {item : Statement}
    (hdone : recovered parser unread = .done item rest []) :
    parser unread = .done item rest [] := by
  unfold recovered at hdone
  cases hreply : parser unread with
  | done value left reports =>
    rw [hreply] at hdone
    exact hdone
  | failed report left reports =>
    rw [hreply] at hdone
    simp at hdone
  | stopped halt =>
    rw [hreply] at hdone
    cases hdone

/-- A statement without a failure is handed on by recovery. -/
theorem recovered_of_done {parser : Parser Statement} {item : Statement}
    (hdone : parser unread = .done item rest reports) :
    recovered parser unread = .done item rest reports := by
  rw [recovered, hdone]

/-- A failure becomes an error statement, reported at its place. -/
theorem recovered_of_failed {parser : Parser Statement} {report : Report}
    (hfailed : parser unread = .failed report rest reports) :
    recovered parser unread = .done (.error report.complaint) rest (reports ++ [report]) := by
  rw [recovered, hfailed]

/-- A lexeme is passed only behind a parser that leaves everything unread. -/
theorem done_of_passing {parser : Parser α} {value : α}
    (hdone : passing parser unread = .done value rest reports) :
    ∃ left, parser unread = .done value left reports ∧
      rest = if left.length < unread.length then left else left.tail := by
  unfold passing at hdone
  cases hreply : parser unread with
  | done item left later =>
    rw [hreply] at hdone
    obtain ⟨rfl, rfl, rfl⟩ := Reply.done.inj hdone
    exact ⟨left, rfl, rfl⟩
  | failed | stopped =>
    rw [hreply] at hdone
    cases hdone

/-- A parser that reads something is not made to pass a token by. -/
theorem passing_of_done {parser : Parser α} {value : α}
    (hdone : parser unread = .done value rest reports) (hless : rest.length < unread.length) :
    passing parser unread = .done value rest reports := by
  rw [passing, hdone]
  simp only [if_pos hless]

/-- A test of the next lexeme succeeds only if there is one. -/
theorem exists_cons_of_head_any {test : Lexeme → Bool} (htest : unread.head?.any test = true) :
    ∃ lexeme rest, unread = lexeme :: rest ∧ test lexeme = true := by
  cases unread with
  | nil => simp at htest
  | cons lexeme rest => exact ⟨lexeme, rest, rfl, by simpa using htest⟩

/-- A mark that is next is passed. -/
theorem expectMark_cons {lexeme : Lexeme} {mark : String} {expected : Expected}
    (hmark : lexeme.isMarkOf [mark] = true) (rest : List Lexeme) :
    expectMark mark expected (lexeme :: rest) = .done () rest [] := by
  rw [expectMark_apply, List.head?_cons, Option.any_some, if_pos hmark, List.tail_cons]

/-- A mark that is passed was the next lexeme. -/
theorem exists_mark_of_expectMark {mark : String} {expected : Expected}
    (hdone : expectMark mark expected unread = .done () rest reports) :
    ∃ lexeme, unread = lexeme :: rest ∧ lexeme.isMarkOf [mark] = true := by
  rw [expectMark_apply] at hdone
  split at hdone
  · next hhead =>
    obtain ⟨lexeme, behind, rfl, hlexeme⟩ := exists_cons_of_head_any hhead
    obtain rfl : behind = rest := (Reply.done.inj hdone).2.1
    exact ⟨lexeme, rfl, hlexeme⟩
  · cases hdone

/-- A mark that is passed in front of a place stands in front of that place. -/
theorem exists_cons_of_expectMark {near left far : List Lexeme} {mark : String}
    {expected : Expected}
    (hdone : expectMark mark expected (near ++ far) = .done () (left ++ far) reports) :
    ∃ lexeme, near = lexeme :: left ∧ lexeme.isMarkOf [mark] = true := by
  obtain ⟨lexeme, hcons, hlexeme⟩ := exists_mark_of_expectMark hdone
  exact ⟨lexeme, List.append_cancel_right hcons, hlexeme⟩

/-- The binary operator that is next has its mark. -/
theorem head_of_nextOperator {operator : BinaryOperator} {precedence : Nat}
    (hfound : (unread.head?.bind fun lexeme =>
      if lexeme.isMark then
        (BinaryOperator.ofSpelling? lexeme.text).filter (·.precedence == precedence)
      else none) = some operator) :
    unread.head?.any (·.isMarkOf (BinaryOperator.all.map BinaryOperator.spelling)) = true := by
  obtain ⟨lexeme, hhead, hlexeme⟩ := Option.bind_eq_some_iff.mp hfound
  split at hlexeme
  · next hmark =>
    have hspelling :=
      BinaryOperator.spelling_of_ofSpelling? (Option.filter_eq_some_iff.mp hlexeme).1
    have hmem : operator ∈ BinaryOperator.all := by cases operator <;> decide
    rw [hhead, Option.any_some, Lexeme.isMarkOf, hmark, Bool.true_and, List.contains_iff_mem,
      ← hspelling]
    exact List.mem_map_of_mem hmem
  · cases hlexeme

/-- What begins with a symbol or an operator is read by its mark. -/
theorem primary_isMark {inside : Option Layer} {literals : Bool} {lexeme : Lexeme}
    (hmark : lexeme.isMark = true) (rest : List Lexeme) :
    primary inside literals (lexeme :: rest) =
      marked inside literals lexeme.text (lexeme :: rest) := by
  obtain ⟨kind, text⟩ := lexeme
  unfold primary
  rw [peek_bind]
  cases kind <;> first | rfl | cases hmark

/-- Behind an opening parenthesis a group is read, unless the parenthesis is closed at once. -/
theorem primary_group {inside : Option Layer} {literals : Bool} {opening : Lexeme}
    (hopening : opening.isMarkOf ["("] = true)
    (hunread : unread.head?.any (·.isMarkOf [")"]) = false) :
    primary inside literals (opening :: unread) = group inside (opening :: unread) := by
  obtain ⟨hmark, htext⟩ := Lexeme.of_isMarkOf_singleton hopening
  rw [primary_isMark hmark, htext]
  unfold marked
  rw [if_pos rfl, peekSecond_bind, List.getElem?_cons_succ, ← List.head?_eq_getElem?, hunread,
    if_neg (by simp)]

/-- Where a mark is next that begins no expression, there is none. -/
theorem primary_noExpression {inside : Option Layer} {literals : Bool} {lexeme : Lexeme}
    (hmark : lexeme.isMark = true) (hgroup : lexeme.text ≠ "(") (harray : lexeme.text ≠ "[")
    (hunary : UnaryOperator.ofSpelling? lexeme.text = none) (rest : List Lexeme) :
    primary inside literals (lexeme :: rest) = noExpression (lexeme :: rest) := by
  rw [primary_isMark hmark]
  simp only [marked, if_neg hgroup, if_neg harray, hunary]

/-- What begins with no word of a statement is read as an expression. -/
theorem statement_of_expression {options : Options} {inside : Option Layer} {lexeme : Lexeme}
    (hword : lexeme.isWord = true → behindWord options inside lexeme.text = none)
    (rest : List Lexeme) :
    statement options inside (lexeme :: rest) = expressionStatement inside (lexeme :: rest) := by
  have hnone : (if lexeme.isWord then behindWord options inside lexeme.text else none) = none := by
    split
    · next hisWord => exact hword hisWord
    · rfl
  unfold statement
  rw [peek_bind]
  simp only [List.head?_cons, hnone]

/-- What stands behind the word of a statement is read by the parser for that word. -/
theorem statement_of_word {options : Options} {inside : Option Layer} {lexeme : Lexeme}
    {text : String} {parser : Parser Statement} (hword : lexeme.isWordOf [text] = true)
    (hparser : behindWord options inside text = some parser) (rest : List Lexeme) :
    statement options inside (lexeme :: rest) = parser rest := by
  have htext : lexeme.text = text := by
    simp only [Lexeme.isWordOf, Bool.and_eq_true, List.contains_iff_mem,
      List.mem_singleton] at hword
    exact hword.2
  unfold statement
  rw [peek_bind]
  simp only [List.head?_cons, Lexeme.isWord_of_isWordOf hword, if_true, htext, hparser]
  exact advance_bind _ _

/-- The parser for a word that begins a statement is one of these. -/
theorem behindWord_cases {options : Options} {inside : Option Layer} {word : String}
    {motive : ∀ parser, behindWord options inside word = some parser → Prop}
    (declaration : ∀ binding hword, motive (declaration inside binding) hword)
    (conditional : ∀ hword, motive (conditional inside) hword)
    (whileLoop : ∀ hword, motive (whileLoop inside) hword)
    (forLoop : ∀ hword, motive (forLoop inside) hword)
    (breakLoop : ∀ hword, motive (closed .breakLoop) hword)
    (continueLoop : ∀ hword, motive (closed .continueLoop) hword)
    (returnValue : ∀ hword, motive (returnValue inside) hword)
    (struct : ∀ hword, motive (struct inside) hword)
    (impl : ∀ hword, motive (impl options inside) hword)
    (function : ∀ hword, motive (function options inside) hword)
    {parser : Parser Statement} (hword : behindWord options inside word = some parser) :
    motive parser hword := by
  have hsome := hword
  unfold behindWord at hsome
  split at hsome <;> cases hsome
  · exact declaration .variable hword
  · exact declaration .constant hword
  · exact conditional hword
  · exact whileLoop hword
  · exact forLoop hword
  · exact breakLoop hword
  · exact continueLoop hword
  · exact returnValue hword
  · exact struct hword
  · exact impl hword
  · exact function hword

/-- A field of a struct literal that begins with a name: the name is refused if it is given, has the
value behind a colon, or is its own value. -/
theorem literalField_isIdentifier {layer : Layer} {struct : String}
    {given : List (String × Expression)} {name : Lexeme} (hname : name.kind = .identifier)
    (unread : List Lexeme) :
    literalField layer struct given (name :: unread) =
      if given.any (·.1 == name.text) then
        .failed ⟨unread.length + 1, .unexpected (some name) (.unsetField struct)⟩ unread []
      else if unread.head?.any (·.isMarkOf [":"]) then
        (Prod.mk name.text <$> layer.expression true) unread.tail
      else .done (name.text, .name ⟨name.text, []⟩) unread [] := by
  unfold literalField
  rw [peek_bind]
  simp only [List.head?_cons, if_pos hname]
  by_cases hgiven : given.any (·.1 == name.text) = true
  · rw [if_pos hgiven, if_pos hgiven]
    rfl
  · rw [if_neg hgiven, if_neg hgiven, advance_bind, List.tail_cons, accept_bind]
    rfl

/-- A round that finds a name reads an item, and goes on if a separator is behind it. -/
theorem nextUpTo_isIdentifier {item : List α → Parser α} {items : List α}
    {separators : List String} {closing : String} {name : Lexeme} (hname : name.kind = .identifier)
    (unread : List Lexeme) :
    nextUpTo item separators closing items (name :: unread) = (do
      let next ← item items
      if ← accept separators then return .again (next :: items)
      else return .finish (next :: items) : Parser (Turn (List α))) (name :: unread) := by
  have hclosing : name.isMarkOf [closing] = false :=
    Lexeme.isMarkOf_of_not_isMark (by simp [Lexeme.isMark, hname])
  unfold nextUpTo
  rw [nextIsMark_bind, List.head?_cons, Option.any_some, hclosing, if_neg (by simp), atEnd_bind,
    List.head?_cons, Option.isNone_some, if_neg (by simp)]

end Parser

variable {α β : Type} {unread : List Lexeme}

/-- A reply that is no value, or one with reports. -/
def Reply.Faulty (reply : Reply α) : Prop := ∀ value rest, reply ≠ .done value rest []

/-- What follows a fault does not undo it. -/
theorem Reply.Faulty.bind {parser : Parser α} {next : α → Parser β}
    (hparser : (parser unread).Faulty) : ((parser >>= next) unread).Faulty := by
  intro value rest hdone
  obtain ⟨first, middle, hfirst, -⟩ := Parser.exists_of_bind_eq_silent hdone
  exact hparser first middle hfirst

/-- What comes before a fault does not undo it. -/
theorem Reply.Faulty.behind {parser : Parser α} {next : α → Parser β}
    (hnext : ∀ value rest, (next value rest).Faulty) : ((parser >>= next) unread).Faulty := by
  intro value rest hdone
  obtain ⟨first, middle, -, hlast⟩ := Parser.exists_of_bind_eq_silent hdone
  exact hnext first middle value rest hlast

/-- Where no expression begins there is a report. -/
theorem Parser.noExpression_faulty (unread : List Lexeme) : (noExpression unread).Faulty :=
  .bind fun _ _ hdone => nomatch hdone

end BraceLang
