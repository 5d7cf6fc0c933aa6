import BraceLang.Proofs.Nesting.Levels
import BraceLang.Proofs.Outline.Basic
import BraceLang.Proofs.Parsing.Completion

/-!
# Counting open levels

An outline can be carried out with a counter of the levels that are open, in place of layers inside
one another: a construct counts up for what is read in it and counts down behind that, however it is
left, and only the counter tells whether there is a level left. What is seen on the way is every
value that the counter is set to, and every boundary in a list of statements.

What one construct preserves is that the counter stands where it stood, at as many levels as may not
be opened any more. So it never leaves its range, and the replies are those of the parsers.
-/

namespace BraceLang

/-- What is seen while an input is read with a counter of open levels. -/
inductive Event where
  /-- The counter is set. -/
  | counted (depth : Int)
  /-- A list of statements may go on or end, where so many lexemes are unread. -/
  | boundary (depth : Int) (left : Nat)
  deriving DecidableEq, Repr

/-- The counter where something is seen. -/
def Event.depth : Event → Int
  | .counted depth | .boundary depth _ => depth

/-- A reply, the counter behind it, and what is seen on the way. -/
structure Course (α : Type) where
  reply : Reply α
  depth : Int
  events : List Event

namespace Course

variable {α β σ : Type}

/-- A parser that leaves the counter alone. -/
def step (parser : Parser α) (depth : Int) (unread : List Lexeme) : Course α :=
  ⟨parser unread, depth, []⟩

/-- Goes on behind a value, with the counter as it is there. -/
def bind (course : Course α) (next : α → Int → List Lexeme → Course β) : Course β :=
  match course.reply with
  | .done value rest reports =>
    let later := next value course.depth rest
    ⟨later.reply.after reports, later.depth, course.events ++ later.events⟩
  | .failed report rest reports => ⟨.failed report rest reports, course.depth, course.events⟩
  | .stopped halt => ⟨.stopped halt, course.depth, course.events⟩

/-- Goes round at most once for each of some lexemes and once more. -/
def rounds (round : σ → Int → List Lexeme → Course (Turn σ)) :
    List Lexeme → σ → Int → List Lexeme → Course σ
  | [], state, depth, unread => (round state depth unread).bind fun
    | .again _ => step fun _ => .stopped .endless
    | .finish last => step (pure last)
  | _ :: fewer, state, depth, unread => (round state depth unread).bind fun
    | .again next => rounds round fewer next
    | .finish last => step (pure last)

/-- Counts a level up for what is read in it and down behind that, or complains that there is no
level left. -/
def deeper (inner : Int → List Lexeme → Course α) (depth : Int) (unread : List Lexeme) :
    Course α :=
  if depth < maxNesting then
    let course := inner (depth + 1) unread
    ⟨course.reply, course.depth - 1,
      .counted (depth + 1) :: (course.events ++ [.counted (course.depth - 1)])⟩
  else step (BraceLang.nested none fun _ _ => .stopped .endless) depth unread

end Course

open Course in
/-- Carries out an outline with a counter of open levels. -/
def Outline.run {α : Type} {allowance : Allowance} {known : Option Lexeme}
    {parser : Parser α} : Outline allowance known parser → Int → List Lexeme → Course α
  | .bind outline next, depth, unread =>
    (outline.run depth unread).bind fun value => (next value).run
  | @Outline.cond _ _ _ _ _ condition _ yes no, depth, unread =>
    if hcondition : condition then (yes hcondition).run depth unread
    else (no hcondition).run depth unread
  | .anyway outline, depth, unread | .plain outline, depth, unread
  | .allowing _ outline, depth, unread | .call outline, depth, unread => outline.run depth unread
  | @Outline.asking _ allowance _ outline, depth, unread =>
    (outline allowance.literals).run depth unread
  | .look atEnd before, depth, unread =>
    match unread.head? with
    | none => atEnd.run depth unread
    | some lexeme => (before lexeme).run depth unread
  | .repeating _ state round, depth, unread =>
    rounds (fun state => (round state).run) unread state depth unread
  | .nested outline, depth, unread => deeper outline.run depth unread
  | .tooDeep _, depth, unread => deeper (step fun _ => .stopped .endless) depth unread
  | .recovered outline, depth, unread =>
    let course := outline.run depth unread
    { course with reply := Parser.recovered (fun _ => course.reply) unread }
  | .passing outline, depth, unread =>
    let course := outline.run depth unread
    { course with reply := Parser.passing (fun _ => course.reply) unread }
  | .boundary outline, depth, unread =>
    let course := outline.run depth unread
    { course with events := .boundary depth unread.length :: course.events }
  | .pure value, depth, unread => step (Pure.pure value) depth unread
  | .second _, depth, unread => step Parser.peekSecond depth unread
  | .both mark test _, depth, unread =>
    step (do
      let first ← Parser.nextIsMark [mark]
      let second ← Parser.peekSecond
      return first && test second) depth unread
  | .advance, depth, unread => step Parser.advance depth unread
  | .complain expected, depth, unread => step (Parser.complain expected) depth unread
  | .reject expected, depth, unread => step (Parser.reject expected) depth unread
  | .rejectPassing expected, depth, unread => step (Parser.rejectPassing expected) depth unread
  | .numeral text, depth, unread => step (Parser.numeral text) depth unread

/-- A course comes to a reply with the counter where it stood, and the counter does not leave its
range on the way. -/
structure Course.Keeps {α : Type} (course : Course α) (reply : Reply α) (depth : Int) : Prop where
  reply_eq : course.reply = reply
  depth_eq : course.depth = depth
  within : ∀ event ∈ course.events, 0 ≤ event.depth ∧ event.depth ≤ maxNesting

namespace Course.Keeps

variable {α β σ : Type} {depth : Int} {unread : List Lexeme}

/-- A parser without calls of its own leaves the counter where it stood. -/
theorem step (parser : Parser α) : (Course.step parser depth unread).Keeps (parser unread) depth :=
  ⟨rfl, rfl, fun _ hevent => nomatch hevent⟩

/-- What follows finds the counter where it stood. -/
theorem bind {course : Course α} {parser : Parser α} {next : α → Parser β}
    {later : α → Int → List Lexeme → Course β} (hcourse : course.Keeps (parser unread) depth)
    (hlater : ∀ value rest, (later value depth rest).Keeps (next value rest) depth) :
    (course.bind later).Keeps ((parser >>= next) unread) depth := by
  obtain ⟨reply, _, events⟩ := course
  obtain ⟨rfl, rfl, hwithin⟩ := hcourse
  cases hreply : parser unread with
  | done value rest reports =>
    obtain ⟨hreplyLater, hdepthLater, hwithinLater⟩ := hlater value rest
    simp only [Course.bind]
    refine ⟨?_, hdepthLater, fun event hevent => ?_⟩
    · rw [hreplyLater, Parser.bind_of_done next hreply]
    · exact (List.mem_append.mp hevent).elim (hwithin event) (hwithinLater event)
  | failed report rest reports =>
    exact ⟨(Parser.bind_of_failed next hreply).symm, rfl, hwithin⟩
  | stopped halt => exact ⟨(Parser.bind_of_stopped next hreply).symm, rfl, hwithin⟩

/-- Every round finds the counter where it stood. -/
theorem rounds {round : σ → Parser (Turn σ)} {course : σ → Int → List Lexeme → Course (Turn σ)}
    (hround : ∀ state unread, (course state depth unread).Keeps (round state unread) depth)
    (fuel : List Lexeme) (state : σ) (unread : List Lexeme) :
    (Course.rounds course fuel state depth unread).Keeps
      (Parser.repeatFor round fuel state unread) depth := by
  induction fuel generalizing state unread with
  | nil =>
    refine bind (hround state unread) fun turn rest => ?_
    cases turn with
    | again next => exact step fun _ => .stopped .endless
    | finish last => exact step (pure last)
  | cons lexeme fuel ih =>
    refine bind (hround state unread) fun turn rest => ?_
    cases turn with
    | again next => exact ih next rest
    | finish last => exact step (pure last)

/-- A level is counted up and down again, if there is one left. -/
theorem deeper {inner : Int → List Lexeme → Course α} {parser : Parser α}
    (hdepth : 0 ≤ depth ∧ depth < maxNesting)
    (hinner : (inner (depth + 1) unread).Keeps (parser unread) (depth + 1)) :
    (Course.deeper inner depth unread).Keeps (parser unread) depth := by
  obtain ⟨hreply, hback, hwithin⟩ := hinner
  unfold Course.deeper
  rw [if_pos hdepth.2]
  refine ⟨hreply, by simp only [hback]; omega, fun event hevent => ?_⟩
  simp only [List.mem_cons, List.mem_append, List.not_mem_nil, or_false] at hevent
  rcases hevent with rfl | hevent | rfl
  · simp only [Event.depth]
    omega
  · exact hwithin event hevent
  · simp only [Event.depth, hback]
    omega

end Course.Keeps

/-- An outline comes to the reply of its parser if the counter stands at the levels that may not be
opened any more, and keeps the counter. -/
theorem Outline.run_keeps {α : Type} {allowance : Allowance} {known : Option Lexeme}
    {parser : Parser α} (outline : Outline allowance known parser) {depth : Int}
    (hpositive : 0 ≤ depth) (hdepth : depth + allowance.levels = maxNesting)
    (unread : List Lexeme) : (outline.run depth unread).Keeps (parser unread) depth := by
  induction outline generalizing depth unread with
  | pure value => exact .step (Pure.pure value)
  | bind outline next ihOutline ihNext =>
    exact .bind (ihOutline hpositive hdepth unread)
      fun value rest => ihNext value hpositive hdepth rest
  | cond condition yes no ihYes ihNo =>
    unfold run
    split
    · exact ihYes _ hpositive hdepth unread
    · exact ihNo _ hpositive hdepth unread
  | anyway _ ih | plain _ ih | allowing _ _ ih | call _ ih => exact ih hpositive hdepth unread
  | asking next _ ih => exact ih _ hpositive hdepth unread
  | look atEnd before ihNone ihSome =>
    unfold run
    rw [Parser.peek_bind]
    cases unread.head? with
    | none => exact ihNone hpositive hdepth unread
    | some lexeme => exact ihSome lexeme hpositive hdepth unread
  | second => exact .step _
  | both mark test => exact .step _
  | advance | complain | reject | rejectPassing | numeral => exact .step _
  | repeating chain state round ih =>
    exact .rounds (fun state unread => ih state hpositive hdepth unread) unread state unread
  | nested outline ih =>
    simp only at hdepth ih
    exact .deeper ⟨hpositive, by omega⟩ (ih (by omega) (by omega) unread)
  | tooDeep parser =>
    simp only at hdepth
    have hfull : ¬depth < maxNesting := by omega
    unfold run Course.deeper
    rw [if_neg hfull]
    exact .step _
  | @recovered _ parser outline ih =>
    obtain ⟨hreply, hback, hwithin⟩ := ih hpositive hdepth unread
    refine ⟨?_, hback, hwithin⟩
    change Parser.recovered (fun _ => (outline.run depth unread).reply) unread = _
    rw [hreply]
    rfl
  | @passing _ _ parser outline ih =>
    obtain ⟨hreply, hback, hwithin⟩ := ih hpositive hdepth unread
    refine ⟨?_, hback, hwithin⟩
    change Parser.passing (fun _ => (outline.run depth unread).reply) unread = _
    rw [hreply]
    rfl
  | boundary outline ih =>
    obtain ⟨hreply, hback, hwithin⟩ := ih hpositive hdepth unread
    refine ⟨hreply, hback, List.forall_mem_cons.mpr ⟨⟨hpositive, ?_⟩, hwithin⟩⟩
    simp only [Event.depth]
    omega

section Programs

/-- Reads a program with a counter of open levels, from zero on. -/
def countedProgram (options : Options) (unread : List Lexeme) : Course (List Statement) :=
  (programOutline options).run 0 unread

/-- Whatever is parsed: no descent from the root of its tree passes more levels than may be open at
once, and the counter of open levels never leaves its range. -/
theorem parseTokens_levels {tokens : List Token} {source : Option String} {options : Options}
    {program : List Statement} {diagnostics : List Diagnostic}
    (hparsed : parseTokens tokens source options = .ok (program, diagnostics)) :
    (∀ levels last, Tree.Node.Descent (Statement.blockToNode program) levels last →
      levels ≤ maxNesting) ∧
    let course := countedProgram options (Input.ofTokens tokens).lexemes
    (∃ reports, course.reply = .done program [] reports ∧
      diagnostics = ((Input.ofTokens tokens).reportTo reports (.empty source)).reported) ∧
    course.depth = 0 ∧
    ∀ event ∈ course.events, 0 ≤ event.depth ∧ event.depth ≤ maxNesting := by
  obtain ⟨reports, hprogram, hdiagnostics⟩ := parseTokens_eq_ok hparsed
  obtain ⟨hreply, hdepth, hwithin⟩ := (programOutline options).run_keeps (Int.le_refl 0)
    (Int.zero_add _) (Input.ofTokens tokens).lexemes
  exact ⟨fun levels last hdescent => program_levels hprogram hdescent,
    ⟨reports, hreply.trans hprogram, hdiagnostics⟩, hdepth, hwithin⟩

/-- The call of a name with an array: the array is two levels below the call, and the counter is at
two where the array is read. -/
theorem parseTokens_levels_array :
    let lexemes : List Lexeme := [⟨.identifier, "f"⟩, ⟨.symbol, "("⟩, ⟨.symbol, "["⟩,
      ⟨.symbol, "]"⟩, ⟨.symbol, ")"⟩, ⟨.symbol, ";"⟩]
    let tokens := lexemes.map fun lexeme => Token.mk lexeme (.start "main")
    let program : List Statement := [.expression (.call ⟨"f", []⟩ [.array []])]
    parseTokens tokens none {} = .ok (program, []) ∧
      Tree.Node.Descent (Statement.blockToNode program) 2 (Expression.array []).toNode ∧
      (∀ levels last, Tree.Node.Descent (Statement.blockToNode program) levels last →
        levels ≤ maxNesting) ∧
      Event.counted 2 ∈ (countedProgram {} lexemes).events ∧
      ∀ event ∈ (countedProgram {} lexemes).events, 0 ≤ event.depth ∧ event.depth ≤ maxNesting := by
  intro lexemes tokens program
  have hparsed : parseTokens tokens none {} = .ok (program, []) := rfl
  have hlevels := parseTokens_levels hparsed
  have harray : (some (.text "arguments"), (Expression.array []).toNode) ∈
      (Expression.call ⟨"f", []⟩ [.array []]).toNode.edges := .tail _ (.head _)
  have hcall : (none, (Expression.call ⟨"f", []⟩ [.array []]).toNode) ∈
      (Statement.expression (.call ⟨"f", []⟩ [.array []])).toNode.edges := .head _
  have hstatement : (none, (Statement.expression (.call ⟨"f", []⟩ [.array []])).toNode) ∈
      (Statement.blockToNode program).edges := .head _
  have hroot := Tree.Node.Descent.down hstatement (.down hcall (.down harray (.here _)))
  exact ⟨hparsed, hroot, hlevels.1, by decide, hlevels.2.2.2⟩

end Programs

end BraceLang
