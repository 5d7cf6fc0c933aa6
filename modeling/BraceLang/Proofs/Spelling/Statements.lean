import BraceLang.Parser.Program
import BraceLang.Proofs.Spelling.Operations

/-!
# Accounts of statements and programs

The parser of a statement runs behind the word that begins it, so its account is of a row that
begins with that word. With the account of every statement form the layers account for one another
from the innermost outwards, and the outermost one accounts for whole programs.
-/

namespace BraceLang

open Language Spellings

/-- What was passed behind the word of a statement spells the statement with that word. -/
abbrev Outcome.behindWord (lexeme : Lexeme) : Outcome Statement :=
  fun statement passed rest reports =>
    Outcome.statement statement (lexeme :: passed) rest reports

/-- The fields of a struct behind the first have a comma or a semicolon in front. -/
theorem StructField.separates :
    Separates (mark "," + mark ";") StructField.spellings StructField.behindSpellings :=
  ⟨rfl, fun _ _ => rfl⟩

/-- The fields of a struct are a row of fields. -/
theorem StructField.listSpellings_eq_row (fields : List StructField) :
    listSpellings fields = row (mark "," + mark ";") spellings behindSpellings fields := by
  cases fields <;> rfl

/-- The parameters behind the first have commas in front. -/
theorem Parameter.separates : Separates (mark ",") Parameter.spellings Parameter.behindSpellings :=
  ⟨rfl, fun _ _ => rfl⟩

/-- The parameters of a function are a row of parameters. -/
theorem Parameter.listSpellings_eq_row (parameters : List Parameter) :
    listSpellings parameters = row (mark ",") spellings behindSpellings parameters := by
  cases parameters <;> rfl

/-- A mark of two spellings has one of them. -/
theorem Spellings.either_mem {lexeme : Lexeme} {first second : String}
    (hmark : lexeme.isMarkOf [first, second] = true) : [lexeme] ∈ mark first + mark second := by
  simp only [Lexeme.isMarkOf, Bool.and_eq_true, List.contains_iff_mem, List.mem_cons,
    List.not_mem_nil, or_false] at hmark
  rcases hmark.2 with hfirst | hsecond
  · exact .inl (mark_mem (by simp [Lexeme.isMarkOf, hmark.1, hfirst]))
  · exact .inr (mark_mem (by simp [Lexeme.isMarkOf, hmark.1, hsecond]))

/-- The words in front of the value of a declaration. -/
theorem Statement.declaration_mem {binding : Binding} {lexeme equals : Lexeme} {name : String}
    {type : Option TypeExpr} {stated row : List Lexeme} {value : Spellings}
    (hword : lexeme.isWordOf [binding.word] = true)
    (htype : stated ∈ TypeExpr.annotationSpellings type)
    (hequals : equals.isMarkOf ["="] = true) (hrow : row ∈ value) :
    lexeme :: ⟨.identifier, name⟩ :: (stated ++ equals :: row) ∈
      word binding.word * identifier name * TypeExpr.annotationSpellings type * mark "=" *
        value := by
  simp only [mul_assoc]
  exact cons_mem (word_mem hword) (cons_mem (identifier_mem name)
    (append_mem_mul htype (cons_mem (mark_mem hequals) hrow)))

/-- Branches found since some were held, and the block behind them. -/
def Outcome.branches (held : List Branch × Option (List Statement)) :
    Outcome (List Branch × Option (List Statement)) :=
  fun last passed _ reports => reports = [] → ∃ found, last.1 = found.reverse ++ held.1 ∧
    passed ∈ Branch.behindSpellings found * Statement.otherwiseSpellings last.2

variable {levels : Nat}

/-- The word that declares a binding. -/
theorem Reply.Accounts.binding (unread : List Lexeme) :
    (Parser.binding unread).Accounts levels unread
      (.spells fun binding => Spellings.word binding.word) := by
  have hyes {lexeme : Lexeme} {binding : Binding} (rest : List Lexeme)
      (hword : lexeme.isWordOf [binding.word] = true) :
      ((Parser.advance >>= fun _ => Pure.pure binding) (lexeme :: rest)).Accounts levels
        (lexeme :: rest) (.spells fun binding => Spellings.word binding.word) := by
    rw [Parser.advance_bind]
    exact .cons (Lexeme.isReadable_of_isWord (Lexeme.isWord_of_isWordOf hword))
      (.pure fun _ => word_mem hword)
  unfold Parser.binding
  rw [Parser.nextIsWord_bind]
  split
  · next hlet =>
    obtain ⟨lexeme, rest, rfl, hword⟩ := Parser.exists_cons_of_head_any hlet
    exact hyes rest (show lexeme.isWordOf [Binding.word .variable] = true from hword)
  · rw [Parser.nextIsWord_bind]
    split
    · next hconst =>
      obtain ⟨lexeme, rest, rfl, hword⟩ := Parser.exists_cons_of_head_any hconst
      exact hyes rest (show lexeme.isWordOf [Binding.word .constant] = true from hword)
    · exact .failed

/-- A statement that is nothing but its word. -/
theorem Reply.Accounts.closed {lexeme : Lexeme} {statement : Statement}
    (hstatement : ∀ {row}, row ∈ mark ";" → lexeme :: row ∈ statement.spellings)
    (unread : List Lexeme) :
    (Parser.closed statement unread).Accounts levels unread (.behindWord lexeme) := by
  unfold Parser.closed
  refine .expectMark fun semicolon rest _ hsemicolon => ?_
  exact .cons (Lexeme.isReadable_of_isMarkOf hsemicolon)
    (.pure fun _ => .inl (hstatement (mark_mem hsemicolon)))

namespace InsideAccounts

variable {inside : Option Layer} (hinside : InsideAccounts levels inside)
include hinside

/-- A declaration. -/
theorem declaration {binding : Binding} {lexeme : Lexeme}
    (hword : lexeme.isWordOf [binding.word] = true) (unread : List Lexeme) :
    (Parser.declaration inside binding unread).Accounts levels unread (.behindWord lexeme) := by
  unfold Parser.declaration
  refine .identifier fun name rest _ => ?_
  refine .bind (hinside.statedType rest) fun type stated after reports htype => ?_
  refine .expectMark fun equals behind _ hequals => ?_
  refine .cons (Lexeme.isReadable_of_isMarkOf hequals) ?_
  rw [Parser.nextIsFunctionValue_bind]
  split
  · next hpair =>
    obtain ⟨hopening, hclosing⟩ := Bool.and_eq_true_iff.mp hpair
    match behind with
    | [] => simp at hopening
    | [_] => simp at hclosing
    | opening :: closing :: behind =>
      refine .bind (hinside.functionValue (by simpa using hopening)
        (by simpa using hclosing) behind) ?_
      intro value passed left later hvalue
      rw [Parser.atEnd_bind]
      split
      · next hend =>
        refine .pure fun hreports => .inr ⟨by simpa using hend, ?_⟩
        simp only [List.append_nil, List.append_eq_nil_iff] at hreports ⊢
        obtain ⟨returnType, body, rfl, hpassed⟩ := hvalue hreports.2
        exact Statement.declaration_mem hword (htype hreports.1) hequals hpassed
      · refine .expectMark fun semicolon final _ hsemicolon => ?_
        refine .cons (Lexeme.isReadable_of_isMarkOf hsemicolon) (.pure fun hreports => .inl ?_)
        simp only [List.append_nil, List.append_eq_nil_iff] at hreports ⊢
        obtain ⟨returnType, body, rfl, hpassed⟩ := hvalue hreports.2
        have hspelled : passed ∈ Expression.spellings (.function returnType body) := by
          rw [Expression.spellings]
          exact mem_grouped hpassed
        rw [Statement.spellings, mul_assoc _ _ (mark ";")]
        exact Statement.declaration_mem hword (htype hreports.1) hequals
          (append_mem_mul hspelled (mark_mem hsemicolon))
  · refine .bind (hinside.expression true behind) fun value passed left later hvalue => ?_
    refine .expectMark fun semicolon final _ hsemicolon => ?_
    refine .cons (Lexeme.isReadable_of_isMarkOf hsemicolon) (.pure fun hreports => .inl ?_)
    simp only [List.append_nil, List.append_eq_nil_iff] at hreports ⊢
    rw [Statement.spellings, mul_assoc _ _ (mark ";")]
    exact Statement.declaration_mem hword (htype hreports.1) hequals
      (append_mem_mul (hvalue hreports.2) (mark_mem hsemicolon))

/-- A condition and its block. -/
theorem branch (unread : List Lexeme) :
    (Parser.branch inside unread).Accounts levels unread (.spells Branch.spellings) := by
  unfold Parser.branch
  refine .bind (hinside.expression false unread) fun condition passed rest reports hcondition => ?_
  refine .bind (hinside.block rest) fun body more left later hbody => ?_
  refine .pure fun hreports => ?_
  simp only [List.append_nil, List.append_eq_nil_iff] at hreports ⊢
  rw [Branch.spellings]
  exact append_mem_mul (hcondition hreports.1) (hbody hreports.2)

/-- A further branch, or the block for when none is taken. -/
theorem nextBranch (held : List Branch × Option (List Statement)) (unread : List Lexeme) :
    (Parser.nextBranch inside held unread).Accounts levels unread
      (Outcome.ofRound Outcome.branches held) := by
  unfold Parser.nextBranch
  rw [Parser.nextIsWord_bind]
  split
  · next hnext =>
    obtain ⟨first, rest, rfl, hfirst⟩ := Parser.exists_cons_of_head_any hnext
    rw [Parser.advance_bind]
    refine .cons (Lexeme.isReadable_of_isWord (Lexeme.isWord_of_isWordOf hfirst)) ?_
    rw [Parser.nextIsWord_bind]
    split
    · next hnext =>
      obtain ⟨second, rest, rfl, hsecond⟩ := Parser.exists_cons_of_head_any hnext
      rw [Parser.advance_bind]
      refine .cons (Lexeme.isReadable_of_isWord (Lexeme.isWord_of_isWordOf hsecond)) ?_
      refine .bind (hinside.branch rest) fun next passed after reports hbranch => ?_
      refine .pure ⟨by simp, fun last more left later _ hmore hreports => ?_⟩
      simp only [List.append_nil, List.append_eq_nil_iff] at hreports ⊢
      obtain ⟨found, hlast, hfound⟩ := hmore hreports.2
      refine ⟨next :: found, by simpa using hlast, ?_⟩
      rw [Branch.behindSpellings]
      simp only [mul_assoc]
      exact cons_mem (word_mem hfirst) (cons_mem (word_mem hsecond)
        (append_mem_mul (hbranch hreports.1) hfound))
    · refine .bind (hinside.block rest) fun body passed after reports hbody => ?_
      refine .pure fun hreports => ⟨[], rfl, ?_⟩
      rw [Branch.behindSpellings, one_mul, Statement.otherwiseSpellings, List.append_nil]
      exact cons_mem (word_mem hfirst) (hbody (by simpa using hreports))
  · refine .pure fun _ => ⟨[], rfl, ?_⟩
    rw [Branch.behindSpellings, one_mul]
    exact nil_mem_one

/-- A conditional statement. -/
theorem conditional {lexeme : Lexeme} (hword : lexeme.isWordOf ["if"] = true)
    (unread : List Lexeme) :
    (Parser.conditional inside unread).Accounts levels unread (.behindWord lexeme) := by
  unfold Parser.conditional
  refine .bind (hinside.branch unread) fun first passed rest reports hfirst => ?_
  refine .bind (.repeating hinside.nextBranch ([], Option.none) rest) ?_
  rintro ⟨others, otherwise⟩ more left later hothers
  refine .pure fun hreports => .inl ?_
  simp only [List.append_nil, List.append_eq_nil_iff] at hreports ⊢
  obtain ⟨found, hfound, hmore⟩ := hothers hreports.2
  obtain rfl : found.reverse = others := by simpa using hfound.symm
  simp only [Statement.spellings, List.reverse_reverse, mul_assoc]
  exact cons_mem (word_mem hword) (append_mem_mul (hfirst hreports.1) hmore)

/-- A loop over a condition. -/
theorem whileLoop {lexeme : Lexeme} (hword : lexeme.isWordOf ["while"] = true)
    (unread : List Lexeme) :
    (Parser.whileLoop inside unread).Accounts levels unread (.behindWord lexeme) := by
  unfold Parser.whileLoop
  refine .bind (hinside.expression false unread) fun condition passed rest reports hcondition => ?_
  refine .bind (hinside.block rest) fun body more left later hbody => ?_
  refine .pure fun hreports => .inl ?_
  simp only [List.append_nil, List.append_eq_nil_iff] at hreports ⊢
  rw [Statement.spellings, mul_assoc]
  exact cons_mem (word_mem hword) (append_mem_mul (hcondition hreports.1) (hbody hreports.2))

/-- A loop over the items of something. -/
theorem forLoop {lexeme : Lexeme} (hword : lexeme.isWordOf ["for"] = true)
    (unread : List Lexeme) :
    (Parser.forLoop inside unread).Accounts levels unread (.behindWord lexeme) := by
  unfold Parser.forLoop
  refine .bind (Reply.Accounts.binding unread) fun binding row rest reports hbinding => ?_
  refine .identifier fun name after _ => ?_
  refine .expectWord fun inWord behind _ hin => ?_
  refine .bind (hinside.expression false behind) fun iterable passed left later hiterable => ?_
  refine .bind (hinside.block left) fun body more final last hbody => ?_
  refine .pure fun hreports => .inl ?_
  simp only [List.append_nil, List.append_eq_nil_iff] at hreports ⊢
  simp only [Statement.spellings, mul_assoc]
  exact cons_mem (word_mem hword) (append_mem_mul (hbinding hreports.1)
    (cons_mem (identifier_mem name) (cons_mem (word_mem hin)
      (append_mem_mul (hiterable hreports.2.1) (hbody hreports.2.2)))))

/-- A return. -/
theorem returnValue {lexeme : Lexeme} (hword : lexeme.isWordOf ["return"] = true)
    (unread : List Lexeme) :
    (Parser.returnValue inside unread).Accounts levels unread (.behindWord lexeme) := by
  unfold Parser.returnValue
  rw [Parser.nextIsMark_bind]
  split
  · refine .expectMark fun semicolon rest _ hsemicolon => ?_
    refine .cons (Lexeme.isReadable_of_isMarkOf hsemicolon) (.pure fun _ => .inl ?_)
    rw [Statement.spellings]
    exact cons_mem (word_mem hword) (mark_mem hsemicolon)
  · refine .bind (hinside.expression true unread) fun value passed rest reports hvalue => ?_
    refine .expectMark fun semicolon left _ hsemicolon => ?_
    refine .cons (Lexeme.isReadable_of_isMarkOf hsemicolon) (.pure fun hreports => .inl ?_)
    rw [Statement.spellings, mul_assoc]
    exact cons_mem (word_mem hword)
      (append_mem_mul (hvalue (by simpa using hreports)) (mark_mem hsemicolon))

/-- A field of a struct. -/
theorem structField (unread : List Lexeme) :
    (Parser.structField inside unread).Accounts levels unread (.spells StructField.spellings) := by
  unfold Parser.structField
  refine .identifier fun name rest _ => .expectMark fun colon after _ hcolon => ?_
  refine .cons (Lexeme.isReadable_of_isMarkOf hcolon) (.bind (hinside.type after) ?_)
  intro type passed left reports htype
  refine .pure fun hreports => ?_
  rw [StructField.spellings, mul_assoc, List.append_nil]
  exact cons_mem (identifier_mem name)
    (cons_mem (mark_mem hcolon) (htype (by simpa using hreports)))

/-- A struct. -/
theorem struct {lexeme : Lexeme} (hword : lexeme.isWordOf ["struct"] = true)
    (unread : List Lexeme) :
    (Parser.struct inside unread).Accounts levels unread (.behindWord lexeme) := by
  unfold Parser.struct
  refine .identifier fun name rest _ => .expectMark fun opening after _ hopening => ?_
  refine .cons (Lexeme.isReadable_of_isMarkOf hopening) ?_
  refine .bind (Parser.upTo_accounts StructField.separates either_mem
    (fun _ => hinside.structField) after) ?_
  intro fields passed left reports hfields
  refine .expectMark fun closing final _ hclosing => ?_
  refine .cons (Lexeme.isReadable_of_isMarkOf hclosing) (.pure fun hreports => .inl ?_)
  rw [Statement.spellings, StructField.listSpellings_eq_row, mul_assoc]
  exact cons_mem (word_mem hword) (cons_mem (identifier_mem name)
    (mem_braced hopening (hfields (by simpa using hreports)) hclosing))

/-- A parameter. -/
theorem parameter (unread : List Lexeme) :
    (Parser.parameter inside unread).Accounts levels unread (.spells Parameter.spellings) := by
  unfold Parser.parameter
  refine .identifier fun name rest _ => ?_
  refine .bind (hinside.statedType rest) fun type passed after reports htype => ?_
  refine .pure fun hreports => ?_
  rw [Parameter.spellings, List.append_nil]
  exact cons_mem (identifier_mem name) (htype (by simpa using hreports))

/-- The parameters of a function in their parentheses. -/
theorem parameters (unread : List Lexeme) :
    (Parser.parameters inside unread).Accounts levels unread
      (.spells fun items => parenthesized (Parameter.listSpellings items)) := by
  unfold Parser.parameters
  refine .expectMark fun opening rest _ hopening => ?_
  refine .cons (Lexeme.isReadable_of_isMarkOf hopening) ?_
  refine .bind (Parser.listed_accounts Parameter.separates hinside.parameter rest) ?_
  intro items passed after reports hitems
  refine .expectMark fun closing final _ hclosing => ?_
  refine .cons (Lexeme.isReadable_of_isMarkOf hclosing) (.pure fun hreports => ?_)
  simp only [Parameter.listSpellings_eq_row]
  exact mem_parenthesized hopening (hitems (by simpa using hreports)) hclosing

/-- The return type of a function, if there is one. -/
theorem returnType (stated : Bool) (unread : List Lexeme) :
    (Parser.returnType inside stated unread).Accounts levels unread
      (.spells TypeExpr.returnSpellings) := by
  unfold Parser.returnType
  refine .accept (fun arrow rest _ harrow => ?_) ?_
  · refine .cons (Lexeme.isReadable_of_isMarkOf harrow) (.bind (hinside.type rest) ?_)
    intro type passed left reports htype
    refine .pure fun hreports => ?_
    rw [TypeExpr.returnSpellings, List.append_nil]
    exact cons_mem (either_mem harrow) (htype (by simpa using hreports))
  · cases stated with
    | true => exact .failed
    | false => exact .pure fun _ => nil_mem_one

/-- A function from its name on. -/
theorem callable (expected : Expected) (stated : Bool) (unread : List Lexeme) :
    (Parser.callable inside expected stated unread).Accounts levels unread
      fun function passed _ reports =>
        passed ≠ [] ∧ (reports = [] → passed ∈ function.spellings) := by
  unfold Parser.callable
  refine .identifier fun name rest _ => ?_
  refine .bind (hinside.parameters rest) fun parameters row₁ after reports₁ hparameters => ?_
  refine .bind (hinside.returnType stated after) fun returnType row₂ left reports₂ htype => ?_
  refine .bind (hinside.block left) fun body row₃ final reports₃ hbody => ?_
  refine .pure ⟨by simp, fun hreports => ?_⟩
  simp only [List.append_nil, List.append_eq_nil_iff] at hreports ⊢
  simp only [Function.spellings, mul_assoc]
  exact cons_mem (identifier_mem name) (append_mem_mul (hparameters hreports.1)
    (append_mem_mul (htype hreports.2.1) (hbody hreports.2.2)))

/-- A method. -/
theorem method (options : Options) (unread : List Lexeme) :
    (Parser.method options inside unread).Accounts levels unread
      fun method passed _ reports => passed ≠ [] ∧
        (reports = [] → passed ∈ Spellings.optional (word "fn") * method.spellings) := by
  unfold Parser.method
  rw [Parser.nextIsWord_bind]
  split
  · next hnext =>
    obtain ⟨lexeme, rest, rfl, hlexeme⟩ := Parser.exists_cons_of_head_any hnext
    rw [Parser.advance_bind]
    refine .cons (Lexeme.isReadable_of_isWord (Lexeme.isWord_of_isWordOf hlexeme)) ?_
    refine (hinside.callable .methodName options.methodsStateReturn rest).mono ?_
    intro method passed _ reports _ hmethod
    exact ⟨by simp, fun hreports =>
      cons_mem (mem_optional (word_mem hlexeme)) (hmethod.2 hreports)⟩
  · refine (hinside.callable .methodName options.methodsStateReturn unread).mono ?_
    intro method passed _ reports _ hmethod
    exact ⟨hmethod.1, fun hreports =>
      append_mem_mul (nil_mem_optional (word "fn")) (hmethod.2 hreports)⟩

/-- A further method. -/
theorem nextMethod (options : Options) (held : List Function) (unread : List Lexeme) :
    (Parser.nextMethod options inside held unread).Accounts levels unread
      (Outcome.ofRound (Outcome.collected Function.methodSpellings) held) := by
  have hstays : Outcome.collected Function.methodSpellings held held [] unread [] :=
    Parser.collected_refl rfl held unread
  unfold Parser.nextMethod
  rw [Parser.nextIsMark_bind]
  split
  · exact .pure hstays
  · rw [Parser.atEnd_bind]
    split
    · exact .pure hstays
    · refine .bind (hinside.method options unread) ?_
      rintro method passed rest reports ⟨hpassed, hmethod⟩
      refine .pure ⟨by simpa using hpassed, fun last more left later _ hmore => ?_⟩
      simp only [List.append_nil]
      exact Parser.collected_cons hmore fun hreports found hfound =>
        append_mem_mul (hmethod hreports) hfound

/-- The methods of a struct. -/
theorem impl (options : Options) {lexeme : Lexeme} (hword : lexeme.isWordOf ["impl"] = true)
    (unread : List Lexeme) :
    (Parser.impl options inside unread).Accounts levels unread (.behindWord lexeme) := by
  unfold Parser.impl
  refine .identifier fun name rest _ => .expectMark fun opening after _ hopening => ?_
  refine .cons (Lexeme.isReadable_of_isMarkOf hopening) ?_
  refine .bind (.repeating (hinside.nextMethod options) [] after) ?_
  intro methods passed left reports hmethods
  refine .expectMark fun closing final _ hclosing => ?_
  refine .cons (Lexeme.isReadable_of_isMarkOf hclosing) (.pure fun hreports => .inl ?_)
  obtain ⟨found, rfl, hfound⟩ := hmethods (by simpa using hreports)
  rw [List.append_nil, List.reverse_reverse, Statement.spellings, mul_assoc]
  exact cons_mem (word_mem hword)
    (cons_mem (identifier_mem name) (mem_braced hopening hfound hclosing))

/-- A function. -/
theorem function (options : Options) {lexeme : Lexeme} (hword : lexeme.isWordOf ["fn"] = true)
    (unread : List Lexeme) :
    (Parser.function options inside unread).Accounts levels unread (.behindWord lexeme) := by
  unfold Parser.function
  refine .bind (hinside.callable .functionName options.functionsStateReturn unread) ?_
  intro function passed rest reports hfunction
  refine .pure fun hreports => .inl ?_
  rw [Statement.spellings, List.append_nil]
  exact cons_mem (word_mem hword) (hfunction.2 (by simpa using hreports))

/-- An expression that stands as a statement. -/
theorem expressionStatement (unread : List Lexeme) :
    (Parser.expressionStatement inside unread).Accounts levels unread .statement := by
  unfold Parser.expressionStatement
  refine .bind (hinside.expression true unread) fun value passed rest reports hvalue => ?_
  refine .expectMark fun semicolon left _ hsemicolon => ?_
  refine .cons (Lexeme.isReadable_of_isMarkOf hsemicolon) (.pure fun hreports => .inl ?_)
  rw [Statement.spellings]
  exact append_mem_mul (hvalue (by simpa using hreports)) (mark_mem hsemicolon)

/-- What stands behind a word that begins a statement. -/
theorem behindWord (options : Options) {lexeme : Lexeme} {parser : Parser Statement}
    (hword : lexeme.isWord = true)
    (hparser : Parser.behindWord options inside lexeme.text = Option.some parser)
    (unread : List Lexeme) :
    (parser unread).Accounts levels unread (.behindWord lexeme) := by
  have hspelled {text : String} (htext : lexeme.text = text) :
      lexeme.isWordOf [text] = true := by
    simp [Lexeme.isWordOf, hword, htext]
  unfold Parser.behindWord at hparser
  split at hparser <;> try cases hparser
  · next htext =>
    have hbinding : lexeme.isWordOf [Binding.word .variable] = true := hspelled htext
    exact hinside.declaration hbinding unread
  · next htext =>
    have hbinding : lexeme.isWordOf [Binding.word .constant] = true := hspelled htext
    exact hinside.declaration hbinding unread
  · next htext => exact hinside.conditional (hspelled htext) unread
  · next htext => exact hinside.whileLoop (hspelled htext) unread
  · next htext => exact hinside.forLoop (hspelled htext) unread
  · next htext => exact .closed (cons_mem (word_mem (hspelled htext))) unread
  · next htext => exact .closed (cons_mem (word_mem (hspelled htext))) unread
  · next htext => exact hinside.returnValue (hspelled htext) unread
  · next htext => exact hinside.struct (hspelled htext) unread
  · next htext => exact hinside.impl options (hspelled htext) unread
  · next htext => exact hinside.function options (hspelled htext) unread

/-- A statement. -/
theorem statement (options : Options) (unread : List Lexeme) :
    (Parser.statement options inside unread).Accounts levels unread .statement := by
  unfold Parser.statement
  rw [Parser.peek_bind]
  match unread with
  | [] => exact hinside.expressionStatement []
  | lexeme :: rest =>
    by_cases hword : lexeme.isWord = true
    · simp only [List.head?_cons, if_pos hword]
      cases hparser : Parser.behindWord options inside lexeme.text with
      | none => exact hinside.expressionStatement (lexeme :: rest)
      | some parser =>
        change ((Parser.advance >>= _) _).Accounts _ _ _
        rw [Parser.advance_bind]
        exact .cons (Lexeme.isReadable_of_isWord hword)
          (hinside.behindWord options hword hparser rest)
    · simp only [List.head?_cons, if_neg hword]
      exact hinside.expressionStatement (lexeme :: rest)

end InsideAccounts

end BraceLang
