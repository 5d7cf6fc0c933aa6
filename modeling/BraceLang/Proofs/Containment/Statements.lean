import BraceLang.Proofs.Containment.Expressions

/-!
# Gaps in what is parsed: statements

A statement allows for a row to be put in wherever one of its expressions or blocks does. So does
every layer, from the innermost one outwards.
-/

namespace BraceLang

open BraceLang.Parser

variable {options : Options} {inside : Option Layer} {levels : Nat} {literals : Bool}

section Rounds

/-- A further branch carries the gaps of those before it on, and so does the block for when none is
taken. -/
theorem Carries.nextBranch :
    Carries (InFirst (InList Branch.Gap)) (Parser.nextBranch inside)
      (InTurn (InFirst (InList Branch.Gap)) Branch.OthersGap) := by
  refine .after fun _ => .cond
    (.after fun _ => .after fun _ => .cond
      (.after fun _ => .after fun next =>
        .pure fun ⟨hbranches⟩ => .again (.mk (hbranches.cons next)))
      (.after fun body => .pure fun ⟨hbranches⟩ => .finish (.branches (.mk hbranches))))
    (.pure fun ⟨hbranches⟩ => .finish (.branches (.mk hbranches)))

/-- A further method carries the gaps of those before it on. -/
theorem Carries.nextMethod :
    Carries (InList Function.Gap) (Parser.nextMethod options inside)
      (InTurn (InList Function.Gap) (InList Function.Gap)) :=
  .after fun _ => .cond (.pure .finish) <| .after fun _ => .cond (.pure .finish) <|
    .after fun method => .pure fun hmethods => .again (hmethods.cons method)

end Rounds

/-- What follows a word allows for rows to be put in, if the word begins a statement. -/
inductive WordOutline.Admits (options : Options) {levels : Nat} :
    {found : Option (Parser Statement)} → WordOutline levels found → Prop
  | word {parser : Parser Statement} {outline : Outline ⟨true, levels, true⟩ none parser} :
    outline.Admits options Statement.Gap → Admits options (.word outline)
  | other : Admits options .other

namespace WordOutline.Admits

variable {found : Option (Parser Statement)} {outline : WordOutline levels found}

/-- Nothing is read behind other words. -/
theorem of_none (hfound : found = none) (outline : WordOutline levels found) :
    outline.Admits options := by
  subst hfound
  cases outline
  exact .other

/-- The word is passed, and a row is put in behind it. -/
theorem either {otherwise : Parser Statement} {other : Outline ⟨true, levels, true⟩ none otherwise}
    (houtline : outline.Admits options) (hother : other.Admits options Statement.Gap) :
    (outline.either other).Admits options Statement.Gap := by
  cases houtline with
  | word hword => exact .call (.behind .advance fun _ => hword)
  | other => exact hother

end WordOutline.Admits

namespace InsideOutlines.Admits

variable {outlines : InsideOutlines inside levels} (hadmits : outlines.Admits options)
include hadmits

/-- A declaration. Behind a function value its semicolon may be missing. -/
theorem declaration (binding : Binding) :
    (outlines.declaration binding).Admits options Statement.Gap := by
  refine .behind .identifier fun _ => .behind (.plain _) fun _ => .behind .expectMark fun _ => ?_
  refine .either (.of_step fun _ _ => rfl) ?_ ?_
  · refine .bind hadmits.functionValue (.after fun _ => ?_) fun _ => ?_
    · exact .cond (.pure .declaration) (.after fun _ => .pure .declaration)
    · exact .either .atEnd .pure (.behind .expectMark fun _ => .pure)
  · refine .bind hadmits.expression (.after fun _ => .pure .declaration) fun _ => ?_
    exact .behind .expectMark fun _ => .pure

/-- A condition. -/
theorem condition : (outlines.condition : Outline ⟨true, levels, literals⟩ none _).Admits options
    Expression.Gap :=
  .call (.allowing hadmits.expression)

/-- A condition and its block. -/
theorem branch : (outlines.branch : Outline ⟨true, levels, literals⟩ none _).Admits options
    Branch.Gap := by
  refine .bind hadmits.condition (.after fun _ => .pure .condition) fun _ => ?_
  exact .bind hadmits.block (.pure .body) fun _ => .pure

/-- A further branch, or the block for when none is taken. -/
theorem nextBranch (others : List Branch × Option (List Statement)) :
    (outlines.nextBranch others : Outline ⟨true, levels, literals⟩ none _).Admits options
      (InTurn (InFirst (InList Branch.Gap)) Branch.OthersGap) := by
  refine .either .nextIsWord (.behind .advance fun _ => .either .nextIsWord ?_ ?_) .pure
  · refine .call (.behind .advance fun _ => ?_)
    exact .bind hadmits.branch (.pure fun hbranch => .again (.mk (.head hbranch))) fun _ => .pure
  · exact .bind hadmits.block (.pure fun hbody => .finish (.otherwise hbody)) fun _ => .pure

/-- A conditional statement: a gap in its first branch, in another one, or in the last block. -/
theorem conditional : (outlines.conditional : Outline ⟨true, levels, literals⟩ none _).Admits
    options Statement.Gap := by
  have hothers (first : Branch) : Carries Branch.OthersGap
      (fun others => (Pure.pure (.conditional first others.1.reverse others.2) : Parser Statement))
      Statement.Gap := by
    refine .pure fun hgap => ?_
    cases hgap with
    | branches hbranches =>
      obtain ⟨hbranches⟩ := hbranches
      exact .others hbranches.reverse
    | otherwise hbody => exact .otherwise hbody
  refine .bind hadmits.branch (.after fun _ => .pure .first) fun first => ?_
  exact .bind (.repeating hadmits.nextBranch .nextBranch) (hothers first) fun _ => .pure

/-- A loop over a condition. -/
theorem whileLoop : (outlines.whileLoop : Outline ⟨true, levels, literals⟩ none _).Admits options
    Statement.Gap := by
  refine .bind hadmits.condition (.after fun _ => .pure .whileCondition) fun _ => ?_
  exact .bind hadmits.block (.pure .whileBody) fun _ => .pure

/-- A loop over items. -/
theorem forLoop : (outlines.forLoop : Outline ⟨true, levels, literals⟩ none _).Admits options
    Statement.Gap := by
  refine .behind (.plain _) fun _ => .behind .identifier fun _ => .behind .expectWord fun _ => ?_
  refine .bind hadmits.condition (.after fun _ => .pure .forIterable) fun _ => ?_
  exact .bind hadmits.block (.pure .forBody) fun _ => .pure

/-- A return. -/
theorem returnValue : outlines.returnValue.Admits options Statement.Gap := by
  refine .either .nextIsMark (.behind .expectMark fun _ => .pure) ?_
  refine .bind hadmits.expression (.after fun _ => .pure .returnValue) fun _ => ?_
  exact .behind .expectMark fun _ => .pure

/-- A function from its name on. -/
theorem callable (expected : Expected) (stated : Bool) :
    (outlines.callable expected stated : Outline ⟨true, levels, literals⟩ none _).Admits options
      Function.Gap := by
  refine .behind .identifier fun _ => .behind (.plain _) fun _ => .behind (.plain _) fun _ => ?_
  exact .bind hadmits.block (.pure .body) fun _ => .pure

/-- A function behind its word. -/
theorem function : (outlines.function : Outline ⟨true, levels, literals⟩ none
    (Parser.function options inside)).Admits options Statement.Gap :=
  .bind (hadmits.callable _ _) (.pure .function) fun _ => .pure

/-- A method. -/
theorem method : (outlines.method : Outline ⟨true, levels, literals⟩ none
    (Parser.method options inside)).Admits options Function.Gap := by
  refine .call (.either .nextIsWord (.behind .advance fun _ => ?_) ?_)
  · exact hadmits.callable _ _
  · exact hadmits.callable _ _

/-- A further method. -/
theorem nextMethod (methods : List Function) : (outlines.nextMethod methods :
    Outline ⟨true, levels, literals⟩ none (Parser.nextMethod options inside methods)).Admits options
      (InTurn (InList Function.Gap) (InList Function.Gap)) := by
  refine .either .nextIsMark .pure (.either .atEnd .pure ?_)
  exact .bind hadmits.method (.pure fun hmethod => .again (.head hmethod)) fun _ => .pure

/-- The methods of a struct. -/
theorem impl : (outlines.impl : Outline ⟨true, levels, literals⟩ none
    (Parser.impl options inside)).Admits options Statement.Gap := by
  refine .behind .identifier fun _ => .behind .expectMark fun _ => ?_
  refine .bind (.repeating hadmits.nextMethod .nextMethod)
    (.after fun _ => .pure fun hmethods => .impl hmethods.reverse) fun _ => ?_
  exact .behind .expectMark fun _ => .pure

/-- An expression that stands as a statement. -/
theorem expressionStatement : outlines.expressionStatement.Admits options Statement.Gap := by
  refine .call (.bind hadmits.expression (.after fun _ => .pure .expression) fun _ => ?_)
  exact .behind .expectMark fun _ => .pure

/-- What follows a word allows for rows to be put in, if the word begins a statement. -/
theorem behindWord (word : String) : (outlines.behindWord word :
    WordOutline levels (Parser.behindWord options inside word)).Admits options := by
  unfold InsideOutlines.behindWord Parser.behindWord
  split
  · exact .word (hadmits.declaration .variable)
  · exact .word (hadmits.declaration .constant)
  · exact .word hadmits.conditional
  · exact .word hadmits.whileLoop
  · exact .word hadmits.forLoop
  · exact .word (.behind .expectMark fun _ => .pure)
  · exact .word (.behind .expectMark fun _ => .pure)
  · exact .word hadmits.returnValue
  · exact .word (.plain _)
  · exact .word hadmits.impl
  · exact .word hadmits.function
  · exact .of_none (by split <;> first | rfl | contradiction) _

/-- A statement. -/
theorem statement : (outlines.statement : Outline ⟨true, levels, true⟩ none
    (Parser.statement options inside)).Admits options Statement.Gap := by
  refine .call (.look hadmits.expressionStatement fun lexeme => .anyway ?_)
  have hword : (outlines.statementAt lexeme : WordOutline levels
      (if lexeme.isWord then Parser.behindWord options inside lexeme.text else none)).Admits
        options := by
    unfold InsideOutlines.statementAt
    generalize lexeme.isWord = word
    cases word with
    | false => exact .other
    | true => exact hadmits.behindWord lexeme.text
  exact hword.either hadmits.expressionStatement

end InsideOutlines.Admits

/-- Every layer allows for rows to be put in. -/
theorem insideOutlines_admits (options : Options) (levels : Nat) :
    (insideOutlines options levels).Admits options := by
  induction levels with
  | zero => exact .nothing
  | succ levels ih =>
    refine .layer ⟨fun _ => ih.expression, fun _ => ih.operand, ih.statement, fun hlevels => ?_⟩
    subst hlevels
    rfl

end BraceLang
