import BraceLang.Proofs.Machine.Stages

/-!
# Calls that share a state

A session may be asked for any of the entries, one after the other, whether the calls before came to
a value or failed. Its calls share the tokens, the count of levels and the switch for struct
literals, which outlive them, and one collector. Still nothing of a call is left but what it has
passed: the next call is seen to do what it does on the first call of a session over the tokens that
are left.
-/

namespace BraceLang

open BraceLang.Machine

section Entries

/-- Whatever a session is asked for, its parser comes to an end. -/
theorem Entry.parser_ne_endless (options : Options) (entry : Entry) (unread : List Lexeme) :
    entry.parser options unread ≠ .stopped .endless := by
  have hinside := layerInside_accounts options maxNesting
  have hends {α : Type} {reply : Reply α} {function : α → Tree.Node}
      {outcome : Outcome α} (haccount : reply.Accounts maxNesting unread outcome) :
      reply.map function ≠ .stopped .endless := by
    cases reply with
    | done | failed => exact fun hreply => nomatch hreply
    | stopped halt =>
      obtain ⟨error, rfl, -⟩ := haccount
      exact fun hreply => nomatch hreply
  cases entry with
  | program =>
    rw [parser, Parser.map_apply]
    exact hends (program_accounts options unread)
  | statement =>
    rw [parser, Parser.map_apply]
    exact hends (hinside.statement options unread).recovered
  | block =>
    rw [parser, Parser.map_apply]
    exact hends (hinside.block unread)
  | type =>
    rw [parser, Parser.map_apply]
    exact hends (hinside.type unread)
  | primary =>
    rw [parser, Parser.map_apply]
    exact hends (hinside.primary true unread)
  | expression minimum =>
    rw [parser, Parser.map_apply, Parser.expressionAbove]
    split
    · exact hends (.binary (hinside.operand true) _ unread)
    · exact hends (hinside.primary true unread)

end Entries

namespace Machine.IsLeft

variable {tokens unread : List Token} (hleft : IsLeft tokens unread)
include hleft

/-- What is left is what stands behind the tokens whose lexemes have been passed. -/
theorem eq_drop :
    unread = tokens.drop ((Input.ofTokens tokens).tokens.size - (lexemesOf unread).length) := by
  have hsize : (Input.ofTokens tokens).tokens.size = (lexemesOf tokens).length :=
    (Input.length_lexemes _).symm
  have hlength := hleft.length_eq
  obtain ⟨passed, rfl, -⟩ := hleft
  rw [List.length_append] at hlength
  have hpassed : (lexemesOf (passed ++ unread)).length - (lexemesOf unread).length =
      passed.length := by omega
  rw [hsize, hpassed, List.drop_left]

/-- Where no more lexemes are left there are no more tokens. -/
theorem length_le {before : List Token} (hbefore : IsLeft tokens before)
    (hlexemes : (lexemesOf unread).length ≤ (lexemesOf before).length) :
    unread.length ≤ before.length := by
  have hlength := hleft.length_eq
  have hlengthBefore := hbefore.length_eq
  omega

/-- Where an end token is last, something is left. -/
theorem ne_nil (hending : tokens.getLast?.any (·.kind == .endOfInput) = true) : unread ≠ [] := by
  rintro rfl
  obtain ⟨passed, rfl, hpassed⟩ := hleft
  obtain ⟨last, hlast, hkind⟩ := (Option.any_eq_true _ _).mp hending
  rw [List.append_nil] at hlast
  have hinside := hpassed last (List.mem_of_getLast? hlast)
  simp [Input.isInside, eq_of_beq hkind] at hinside

/-- So the last token is that of all tokens. -/
theorem over_eq (hsome : unread ≠ []) (limit : Option Nat) :
    Setting.over tokens limit = Setting.over unread limit := by
  obtain ⟨passed, rfl, -⟩ := hleft
  rw [Setting.over, Setting.over, Input.lastPlace, Input.lastPlace,
    List.getLast?_append_of_ne_nil _ hsome]

end Machine.IsLeft

namespace SharedSession

variable {options : Options} {tokens : List Token} {source : Option String} {limit : Option Nat}
  {session after : SharedSession} {entry : Entry}

/-- The call that the parser of an entry makes of what is unread: the session passes what the parser
passes, has its reports in the collector, and is otherwise the same. -/
def parse (options : Options) (session : SharedSession) (entry : Entry) :
    Except Halt (Except Finding Tree.Node × SharedSession) :=
  let unread : Session :=
    ⟨Input.ofTokens session.tokens, lexemesOf session.state.unread, []⟩
  (unread.step (entry.parser options)).map fun (result, behind) =>
    (result.mapError (.ofReport session.tokens),
      { session with
        state := session.state.after session.tokens (session.tokens.drop behind.position)
          behind.reports })

/-- A session between calls: no end token has been passed, no level is open, and struct literals may
begin. -/
structure Ready (session : SharedSession) : Prop where
  left : IsLeft session.tokens session.state.unread
  depth : session.state.depth = 0
  literals : session.state.literals = true

/-- A session is ready before the first call. -/
theorem start_ready (tokens : List Token) (source : Option String) (limit : Option Nat) :
    (start tokens source limit).Ready := ⟨.refl tokens, rfl, rfl⟩

/-- What is carried out for a session that is ready follows the parser. -/
theorem Ready.outcome (hready : session.Ready) (options : Options) (entry : Entry) :
    Machine.Follows session.tokens session.state (session.limit.isSome = true)
      (entry.parser options (lexemesOf session.state.unread))
      ((entry.outline options).carryOut (.over session.tokens session.limit) 0 session.state) := by
  have hdepth : session.state.depth + maxNesting = maxNesting := by rw [hready.depth, Int.zero_add]
  exact (entry.outline options).carryOut_follows 0 session.state hready.left hdepth hready.literals
    fun _ hlexeme => nomatch hlexeme

/-- A call of a session that is ready is that of the parser, unless there is too little room. -/
theorem Ready.call_eq (hready : session.Ready) (options : Options) (entry : Entry) :
    call options session entry = parse options session entry ∨
      session.limit ≠ none ∧ call options session entry = .error .exhausted := by
  have hfollows := hready.outcome options entry
  have hends := entry.parser_ne_endless options (lexemesOf session.state.unread)
  rw [call, parse, Session.step]
  generalize (entry.outline options).carryOut (.over session.tokens session.limit) 0 session.state =
    outcome at hfollows ⊢
  generalize entry.parser options (lexemesOf session.state.unread) = reply at hfollows hends ⊢
  cases hfollows with
  | @done node unread reports hleft =>
    left
    simp only [Except.map, Session.position, List.nil_append, ← hleft.eq_drop]
    rfl
  | failed hleft =>
    left
    simp only [Except.map, Session.position, List.nil_append, ← hleft.eq_drop]
    rfl
  | stopped => exact .inl rfl
  | endless => exact absurd rfl hends
  | exhausted hshort => exact .inr ⟨Option.ne_none_iff_isSome.mpr hshort, rfl⟩

/-- What a call keeps to: it goes on in the same tokens and never back, and the session behind it is
ready for the next one. -/
structure Follows (session after : SharedSession) : Prop where
  ready : after.Ready
  tokens : after.tokens = session.tokens
  limit : after.limit = session.limit
  source : after.state.collector.source = session.state.collector.source
  position : session.position ≤ after.position

/-- Every call does. -/
theorem Ready.follows {result : Except Finding Tree.Node} (hready : session.Ready)
    (hcall : call options session entry = .ok (result, after)) : session.Follows after := by
  have hfollows := hready.outcome options entry
  have hruns := (entry.outline options).runs (lexemesOf session.state.unread)
  have hends := entry.parser_ne_endless options (lexemesOf session.state.unread)
  have hposition {rest : List Token} (hleft : IsLeft session.tokens rest)
      (hrest : lexemesOf rest <:+ lexemesOf session.state.unread) :
      session.position ≤ session.tokens.length - rest.length :=
    Nat.sub_le_sub_left (hleft.length_le hready.left hrest.length_le) _
  rw [call] at hcall
  generalize (entry.outline options).carryOut (.over session.tokens session.limit) 0 session.state =
    outcome at hfollows hcall
  generalize entry.parser options (lexemesOf session.state.unread) = reply at hfollows hruns hends
  cases hfollows with
  | done hleft =>
    cases hcall
    exact ⟨⟨hleft, hready.depth, hready.literals⟩, rfl, rfl, rfl, hposition hleft hruns.suffix⟩
  | failed hleft =>
    cases hcall
    exact ⟨⟨hleft, hready.depth, hready.literals⟩, rfl, rfl, rfl, hposition hleft hruns.suffix⟩
  | stopped | exhausted => cases hcall
  | endless => exact absurd rfl hends

/-- So does any row of calls. -/
theorem Ready.calls_follows {entries : List Entry} (hready : session.Ready)
    (hcalls : calls options session entries = .ok after) : session.Follows after := by
  induction entries generalizing session with
  | nil =>
    cases hcalls
    exact ⟨hready, rfl, rfl, rfl, Nat.le_refl _⟩
  | cons entry entries ih =>
    rw [calls] at hcalls
    cases hcall : call options session entry with
    | error halt =>
      rw [hcall] at hcalls
      cases hcalls
    | ok outcome =>
      obtain ⟨result, next⟩ := outcome
      rw [hcall] at hcalls
      have hfirst := hready.follows hcall
      have hrest := ih hfirst.ready hcalls
      exact ⟨hrest.ready, hrest.tokens.trans hfirst.tokens, hrest.limit.trans hfirst.limit,
        hrest.source.trans hfirst.source, hfirst.position.trans hrest.position⟩

/-- What is seen of a call is what is seen of the first call of a session over what is left. -/
theorem Ready.observe_eq (hready : session.Ready) (hsome : session.state.unread ≠ [])
    (options : Options) (entry : Entry) :
    observe options session entry = observe options
      (start session.state.unread session.state.collector.source session.limit) entry := by
  obtain ⟨tokens, limit, state⟩ := session
  obtain ⟨hleft, hdepth, hliterals⟩ := hready
  dsimp only at hleft hdepth hliterals hsome ⊢
  -- the other session has the same tokens in front of it, and nothing in its collector
  let correspondence := Correspondence.inFront (.over tokens limit) state.collector.source
    state.collector.reported
  have htwins : state.Twins correspondence (.start state.unread (.empty state.collector.source)) :=
    ⟨⟨rfl, trivial⟩, hdepth, hliterals, Correspondence.inFront_start _ _ _⟩
  have houtcome := (entry.outline options).carryOut_twins 0 htwins
  have hsetting := hleft.over_eq hsome limit
  have hnew {left right : State} (hbehind : left.Twins correspondence right) :
      left.collector.reported.drop state.collector.reported.length = right.collector.reported ∧
        left.unread = right.unread := by
    obtain ⟨⟨hunread, -⟩, -, -, -, hcollector⟩ := hbehind
    rw [hcollector, List.drop_left]
    exact ⟨rfl, hunread⟩
  simp only [observe, call, start, ← hsetting]
  generalize (entry.outline options).carryOut (.over tokens limit) 0 state = first at houtcome ⊢
  generalize (entry.outline options).carryOut (.over tokens limit) 0
    (.start state.unread (.empty state.collector.source)) = second at houtcome ⊢
  cases houtcome with
  | done hbehind =>
    obtain ⟨hdiagnostics, hunread⟩ := hnew hbehind
    refine congrArg Except.ok ?_
    simp only [next, hdiagnostics, hunread, hsetting]
    rfl
  | failed hfinding hbehind =>
    obtain ⟨hdiagnostics, hunread⟩ := hnew hbehind
    obtain ⟨hcomplaint, before, _, ⟨rfl, -⟩, hplace, hsame⟩ := hfinding
    refine congrArg Except.ok ?_
    simp only [next, hdiagnostics, hunread, Except.mapError, hcomplaint, hplace, hsame, hsetting]
    rfl
  | stopped => rfl

end SharedSession

/-- Calls leave nothing behind but what they have passed, whether they come to values or fail.
Behind any calls to a session over tokens that are ended by an end token no level is open and struct
literals may begin. With any tokens unread and any collector the next call therefore does what the
parser of its entry does, unless there is too little room. It never goes back; and the result that
is seen of it, its new diagnostics and the next token are those of the first call of a session over
the tokens that are left. -/
theorem SharedSession.calls_leave_no_trace {options : Options} {tokens : List Token}
    {source : Option String} {limit : Option Nat} {entries : List Entry} {session : SharedSession}
    (hending : tokens.getLast?.any (·.kind == .endOfInput) = true)
    (hcalls : calls options (start tokens source limit) entries = .ok session) (entry : Entry) :
    session.state.depth = 0 ∧ session.state.literals = true ∧
    session.state.unread = tokens.drop session.position ∧
    (∀ others unread collector, IsLeft others unread →
      let next : SharedSession := ⟨others, limit, { session.state with unread, collector }⟩
      call options next entry = parse options next entry ∨
        limit ≠ none ∧ call options next entry = .error .exhausted) ∧
    (∀ result after, call options session entry = .ok (result, after) →
      session.position ≤ after.position) ∧
    observe options session entry =
      observe options (start (tokens.drop session.position) source limit) entry := by
  have hfollows := (start_ready tokens source limit).calls_follows hcalls
  obtain ⟨hready, htokens, hlimit, hsource, -⟩ := hfollows
  obtain ⟨sessionTokens, sessionLimit, state⟩ := session
  obtain rfl : sessionTokens = tokens := htokens
  obtain rfl : sessionLimit = limit := hlimit
  have hunread : state.unread = sessionTokens.drop (sessionTokens.length - state.unread.length) :=
    List.suffix_iff_eq_drop.mp hready.left.suffix
  have hobserve := hready.observe_eq (hready.left.ne_nil hending) options entry
  refine ⟨hready.depth, hready.literals, hunread, ?_, ?_, ?_⟩
  · intro others unread collector hleft next
    have hnext : next.Ready := ⟨hleft, hready.depth, hready.literals⟩
    exact hnext.call_eq options entry
  · intro result after hcall
    exact (hready.follows hcall).position
  · have hstart : state.collector.source = source := hsource
    rw [hobserve, position, ← hunread, hstart]

/-- A group that is not closed fails one level deep and passes two tokens, and a semicolon is no
type. Behind both a statement is read as it is from the third token on. -/
theorem SharedSession.calls_leave_no_trace_group :
    let tokens := [⟨.symbol, "("⟩, ⟨.identifier, "a"⟩, ⟨.symbol, ";"⟩, ⟨.identifier, "b"⟩,
      ⟨.endOfInput, ""⟩].map fun lexeme => Token.mk lexeme (.start "main")
    let first := start tokens none
    ∃ finding next session, call {} first .primary = .ok (.error finding, next) ∧
      calls {} first [.primary, .type] = .ok session ∧ session.position = 2 ∧
      session.state.depth = 0 ∧
      observe {} session .statement = observe {} (start (tokens.drop 2) none) .statement := by
  intro tokens first
  obtain ⟨session, hcalls, hposition⟩ : ∃ session, calls {} first [.primary, .type] = .ok session ∧
      session.position = 2 := ⟨_, rfl, rfl⟩
  obtain ⟨hdepth, -, -, -, -, hobserve⟩ :=
    calls_leave_no_trace (by decide) hcalls .statement
  rw [hposition] at hobserve
  exact ⟨_, _, session, rfl, hcalls, hposition, hdepth, hobserve⟩

end BraceLang
