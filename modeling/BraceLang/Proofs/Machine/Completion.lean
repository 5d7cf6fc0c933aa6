import BraceLang.Proofs.Machine.Calls
import BraceLang.Proofs.Machine.Stack
import BraceLang.Proofs.Source.Numbers

/-!
# Programs are read to the end

Where there is room for nine hundred and seventy-seven calls, and for one more for each further
branch of a conditional statement, nothing stops the machine but a number that cannot be read. Then
it reads all tokens to the end of the input and comes to a program. A source is read to a program
unless it has a number of too many digits.
-/

namespace BraceLang

open BraceLang.Machine

/-- In front of more lexemes no fewer branches begin. -/
theorem links_le_append (front back : List Lexeme) : links front ≤ links (front ++ back) := by
  induction front with
  | nil => exact Nat.zero_le _
  | cons lexeme front ih =>
    rw [List.cons_append, links, links]
    refine Nat.add_le_add ?_ ih
    cases front with
    | nil =>
      rw [List.head?_nil, Option.any_none, Bool.and_false]
      exact Nat.zero_le _
    | cons second front => exact Nat.le_refl _

/-- There is room for the calls of a program, and for one more for each further branch that begins
in some lexemes. -/
def HasRoomFor (limit : Option Nat) (lexemes : List Lexeme) : Prop :=
  ∀ most ∈ limit, maxCalls + links lexemes ≤ most

section Room

variable {tokens : List Token} {options : Options} {limit : Option Nat}

/-- What opens no more calls than a program finds room in front of all tokens. -/
theorem HasRoomFor.hasRoom {α : Type} {allowance : Allowance} {parser : Parser α}
    {outline : Outline allowance none parser} (hroom : HasRoomFor limit (lexemesOf tokens))
    (hcalls : outline.CallsAtMost maxCalls) (collector : Diagnostic.Collector) :
    (outline.carryOut (.over tokens limit) 0 (.start tokens collector)).HasRoom := by
  refine hcalls.hasRoom 0 _ fun most hmost => ?_
  rw [Nat.zero_add]
  exact hroom most hmost

/-- So a program is read. -/
theorem HasRoomFor.readProgram_ne (hroom : HasRoomFor limit (lexemesOf tokens))
    (collector : Diagnostic.Collector) :
    readProgram tokens collector options limit ≠ .error .exhausted := by
  have hread := hroom.hasRoom (programOutline_calls options) collector
  unfold readProgram
  generalize (programOutline options).carryOut (.over tokens limit) 0 (.start tokens collector) =
    outcome at hread
  cases outcome with
  | done | failed =>
    intro hshort
    cases hshort
  | stopped halt =>
    intro hshort
    cases hshort
    exact hread rfl

/-- And so is what a session is asked for first, if that is a program. -/
theorem HasRoomFor.call_ne (hroom : HasRoomFor limit (lexemesOf tokens))
    (source : Option String) :
    SharedSession.call options (.start tokens source limit) .program ≠ .error .exhausted := by
  have hcalls : (Entry.program.outline options).CallsAtMost maxCalls :=
    ⟨programOutline_calls options, fun _ => trivial⟩
  have hread := hroom.hasRoom hcalls (.empty source)
  unfold SharedSession.call SharedSession.start
  dsimp only
  generalize (Entry.program.outline options).carryOut (.over tokens limit) 0
    (.start tokens (.empty source)) = outcome at hread
  cases outcome with
  | done | failed =>
    intro hshort
    cases hshort
  | stopped halt =>
    intro hshort
    cases hshort
    exact hread rfl

end Room

/-- A session that stands behind all tokens before the end of the input: the first end token is
next, or one behind the last token. -/
def SharedSession.AtEnd (session : SharedSession) : Prop :=
  session.position = (session.tokens.takeWhile Input.isInside).length ∧
    session.next = (session.tokens.find? (·.kind == .endOfInput)).getD
      (.ending (Input.lastPlace session.tokens))

/-- A session of which no lexeme is unread stands behind all tokens. -/
theorem SharedSession.atEnd_of_lexemesOf_nil {session : SharedSession}
    (hleft : IsLeft session.tokens session.state.unread)
    (hnil : lexemesOf session.state.unread = []) : session.AtEnd := by
  have hinside : (lexemesOf session.tokens).length =
      (session.tokens.takeWhile Input.isInside).length := by
    rw [lexemesOf, Input.lexemes_ofTokens, List.length_map]
  have hlength := hleft.length_eq
  have hend : (session.tokens.dropWhile Input.isInside).head? =
      session.tokens.find? (·.kind == .endOfInput) := by
    rw [← List.find?_not_eq_head?_dropWhile]
    simp [Input.isInside, bne]
  rw [hnil, List.length_nil, hinside] at hlength
  constructor
  · rw [position]
    omega
  · rw [next, hleft.current_eq, hnil, ← hend]
    simp only [Input.tokenAt, Input.ofTokens, List.length_nil, Nat.sub_zero, Array.getElem?_size,
      Option.getD_none]
    cases session.tokens.dropWhile Input.isInside <;> rfl

/-- The parser of a program, run over any tokens, reads them to the end of the input and returns a
block, if there is room for its calls. Nothing but a number that cannot be read stops it then, and
where nesting cannot go too deep every such number does. -/
theorem program_completes (tokens : List Token) (source : Option String) (options : Options)
    {limit : Option Nat}
    (hroom : HasRoomFor limit ((tokens.takeWhile Input.isInside).map Token.toLexeme)) :
    let lexemes := (tokens.takeWhile Input.isInside).map Token.toLexeme
    let run := SharedSession.call options (.start tokens source limit) .program
    (match run with
      | .ok (.ok node, last) => node.tag = .block ∧ last.AtEnd
      | .ok (.error _, _) => False
      | .error halt =>
        ∃ error, halt = .unreadable error ∧ ∃ lexeme ∈ lexemes, lexeme.IsUnreadable error) ∧
    ((∀ lexeme ∈ lexemes, lexeme.IsReadable) → ∃ node last, run = .ok (.ok node, last)) ∧
    (openings lexemes ≤ maxNesting →
      ((∃ halt, run = .error halt) ↔ ∃ lexeme ∈ lexemes, ¬lexeme.IsReadable)) := by
  intro lexemes run
  have hlexemes : lexemesOf tokens = lexemes := Input.lexemes_ofTokens tokens
  have hfollows : Machine.Follows tokens (.start tokens (.empty source)) (limit.isSome = true)
      ((Statement.blockToNode <$> Parser.program options) lexemes)
      ((Entry.program.outline options).carryOut (.over tokens limit) 0
        (.start tokens (.empty source))) :=
    hlexemes ▸ (SharedSession.start_ready tokens source limit).outcome options .program
  have hne : run ≠ .error .exhausted := HasRoomFor.call_ne (hlexemes ▸ hroom) source
  have haccount := program_accounts options lexemes
  simp only [run, SharedSession.call, SharedSession.start] at hne ⊢
  generalize (Entry.program.outline options).carryOut (.over tokens limit) 0
    (.start tokens (.empty source)) = outcome at hfollows hne ⊢
  cases hreply : Parser.program options lexemes with
  | failed => exact absurd hreply (program_recovers options lexemes).ne_failed
  | done statements rest reports =>
    rw [hreply] at haccount
    obtain ⟨passed, hsplit, hread, rfl, -⟩ := haccount
    rw [List.append_nil] at hsplit
    rw [Parser.map_of_done Statement.blockToNode hreply] at hfollows
    -- the account of a program leaves nothing unread
    generalize hnil : ([] : List Lexeme) = rest at hfollows
    cases hfollows with
    | done hleft =>
      refine ⟨⟨rfl, SharedSession.atEnd_of_lexemesOf_nil hleft hnil.symm⟩,
        fun _ => ⟨_, _, rfl⟩, fun hnesting => ?_⟩
      constructor
      · rintro ⟨halt, hstop⟩
        cases hstop
      · rintro ⟨lexeme, hmem, hunreadable⟩
        rw [hsplit] at hmem
        exact absurd (hread hnesting lexeme hmem) hunreadable
    | exhausted => exact absurd rfl hne
  | stopped halt =>
    rw [hreply] at haccount
    obtain ⟨error, rfl, lexeme, hmem, hunreadable⟩ := haccount
    have hnot : ¬lexeme.IsReadable := (Lexeme.not_isReadable_iff lexeme).mpr ⟨error, hunreadable⟩
    rw [Parser.map_of_stopped Statement.blockToNode hreply] at hfollows
    cases hfollows with
    | stopped =>
      exact ⟨⟨error, rfl, lexeme, hmem, hunreadable⟩, fun hall => absurd (hall lexeme hmem) hnot,
        fun _ => ⟨fun _ => ⟨lexeme, hmem, hnot⟩, fun _ => ⟨_, rfl⟩⟩⟩
    | exhausted => exact absurd rfl hne

/-- In as much room as a program without a further branch needs, a number with one point lets the
parser return, and one with two points stops it. -/
theorem program_completes_points :
    (∃ node last, SharedSession.call {}
      (.start [⟨⟨.number, "1.5"⟩, .start "main"⟩] none (some 977)) .program =
        .ok (.ok node, last)) ∧
    ∃ halt, SharedSession.call {}
      (.start [⟨⟨.number, "1.5.2"⟩, .start "main"⟩] none (some 977)) .program = .error halt := by
  have hroom {number : Lexeme} (hlinks : links [number] = 0) :
      HasRoomFor (some 977) [number] := by
    rintro most ⟨⟩
    rw [hlinks]
    decide
  constructor
  · refine (program_completes _ _ _ (hroom rfl)).2.1 fun lexeme hmem _ => ?_
    obtain rfl : lexeme = ⟨.number, "1.5"⟩ := List.mem_singleton.mp hmem
    exact ⟨_, rfl⟩
  · refine ((program_completes _ _ _ (hroom rfl)).2.2 (by decide)).mpr
      ⟨⟨.number, "1.5.2"⟩, List.mem_cons_self, ?_⟩
    intro hreadable
    obtain ⟨value, hvalue⟩ := hreadable rfl
    have hread : Numeral.read "1.5.2" = .error (.notReal "1.5.2") := rfl
    rw [hread] at hvalue
    cases hvalue

/-- What is room for lexemes is room for those in front. -/
theorem HasRoomFor.of_append {limit : Option Nat} {front back : List Lexeme}
    (hroom : HasRoomFor limit (front ++ back)) : HasRoomFor limit front := fun most hmost =>
  (Nat.add_le_add_left (links_le_append front back) _).trans (hroom most hmost)

/-- Reading a source comes to a program, unless there is a whole number in it that has more digits
than an integer may have, if there is room for the calls. Every number that is read as a token is
read as a value, however it is spelled and however long it is, but for those; they are told by how
many digits they have. Nothing else stops the reading, and where nesting cannot go too deep every
such number does. What is read is what is parsed. -/
theorem parseSource_completes (source : String) (keywords : List String) (file : String)
    (options : Options) {limit : Option Nat}
    (hroom : HasRoomFor limit
      ((Source.tokenize source keywords file).1.map Token.toLexeme)) :
    let tokens := (Source.tokenize source keywords file).1
    let read := readSource source keywords file options limit
    (∀ token ∈ tokens, token.kind = .number →
      (token.IsOverlong ∧
        Numeral.read token.text = .error (.tooManyDigits token.text.length)) ∨
      (¬token.IsOverlong ∧ ∃ value, Numeral.read token.text = .ok value)) ∧
    (match read with
      | .ok (program, _) => (Statement.blockToNode program).tag = .block
      | .error halt => ∃ token ∈ tokens, token.IsOverlong ∧
        halt = .unreadable (.tooManyDigits token.text.length)) ∧
    ((∀ token ∈ tokens, ¬token.IsOverlong) → ∃ program collector, read = .ok (program, collector)) ∧
    (openings (tokens.map Token.toLexeme) ≤ maxNesting →
      ((∃ halt, read = .error halt) ↔ ∃ token ∈ tokens, token.IsOverlong)) ∧
    (fun (program, collector) => (program, collector.reported)) <$> read =
      parseSource source keywords file options := by
  intro tokens read
  have hlexemes : ∃ back, tokens.map Token.toLexeme = lexemesOf tokens ++ back := by
    refine ⟨(tokens.dropWhile Input.isInside).map Token.toLexeme, ?_⟩
    rw [lexemesOf, Input.lexemes_ofTokens, ← List.map_append, List.takeWhile_append_dropWhile]
  obtain ⟨back, hback⟩ := hlexemes
  have hinside : HasRoomFor limit (lexemesOf tokens) := .of_append (hback ▸ hroom)
  have hne : read ≠ .error .exhausted := by
    simp only [read, readSource_eq_readProgram]
    exact hinside.readProgram_ne _
  have hparsed : (fun (program, collector) => (program, collector.reported)) <$> read =
      parseSource source keywords file options := readSource_eq_parseSource hne
  refine ⟨fun token hmem hkind => Source.read_number hmem hkind, ?_⟩
  clear_value read
  rcases parseSource_account source keywords file options with
    ⟨program, diagnostics, hprogram, hnone⟩ | ⟨token, hmem, hoverlong, hprogram⟩
  · cases read with
    | error halt =>
      rw [hprogram] at hparsed
      cases hparsed
    | ok result =>
      refine ⟨rfl, fun _ => ⟨_, _, rfl⟩, fun hnesting => ?_, hparsed⟩
      constructor
      · rintro ⟨halt, hstop⟩
        cases hstop
      · rintro ⟨token, hmem, hoverlong⟩
        exact absurd hoverlong (hnone hnesting token hmem)
  · cases read with
    | ok result =>
      rw [hprogram] at hparsed
      cases hparsed
    | error halt =>
      have hhalt : halt = .unreadable (.tooManyDigits token.text.length) := by
        rw [hprogram] at hparsed
        exact Except.error.inj hparsed
      exact ⟨⟨token, hmem, hoverlong, hhalt⟩, fun hall => absurd hoverlong (hall token hmem),
        fun _ => ⟨fun _ => ⟨token, hmem, hoverlong⟩, fun _ => ⟨_, rfl⟩⟩, hparsed⟩

/-- In as much room as a program without a further branch needs, a row of 4300 ones is read, and one
more stops the reading. -/
theorem parseSource_completes_ones :
    (∃ program collector, readSource (.ofList (List.replicate 4300 '1')) [] "main" {} (some 977) =
      .ok (program, collector)) ∧
    readSource (.ofList (List.replicate 4301 '1')) [] "main" {} (some 977) =
      .error (.unreadable (.tooManyDigits 4301)) := by
  have hroom {count : Nat} (hcount : 0 < count) : HasRoomFor (some 977)
      ((Source.tokenize (.ofList (List.replicate count '1')) [] "main").1.map Token.toLexeme) := by
    rintro most ⟨⟩
    rw [Source.lexemes_ones hcount]
    exact Nat.le_refl _
  constructor
  · obtain ⟨-, -, hread, -⟩ := parseSource_completes (.ofList (List.replicate 4300 '1')) [] "main"
      {} (hroom (by decide))
    refine hread fun token hmem hoverlong => ?_
    have hlength := Source.length_of_mem_ones (by decide) hmem hoverlong.1
    exact absurd (hlength ▸ hoverlong.2.2) (by decide)
  · have hstops {count : Nat} (hcount : Numeral.maxDigits < count) :
        readSource (.ofList (List.replicate count '1')) [] "main" {} (some 977) =
          .error (.unreadable (.tooManyDigits count)) := by
      have hsome := Nat.zero_lt_of_lt hcount
      obtain ⟨-, hstop, -, hiff, -⟩ :=
        parseSource_completes (.ofList (List.replicate count '1')) [] "main" {} (hroom hsome)
      obtain ⟨halt, hhalt⟩ := (hiff (Source.openings_ones hsome)).mpr
        (Source.exists_overlong_ones hcount)
      rw [hhalt] at hstop
      obtain ⟨token, hmem, ⟨hkind, -⟩, rfl⟩ := hstop
      rw [hhalt, Source.length_of_mem_ones hsome hmem hkind]
    exact hstops (by decide)

end BraceLang
