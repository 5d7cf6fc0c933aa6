import BraceLang.Outline.Grammar

/-!
# The machine

A machine carries out outlines over tokens. Its calls share one state: the tokens from the cursor
on, end tokens and whatever is behind them included, a count of the levels that are open, a switch
for struct literals, and a collector to which complaints are reported where they are made. A
construct sets the switch and counts a level up for what stands in it, and sets both back behind
that, however it is left.

Only so many calls may be open at once, if there is a limit to them. A machine that comes to the
limit stops and leaves nothing but the reason.
-/

namespace BraceLang

namespace Machine

/-- What stays the same while a machine reads. -/
structure Setting where
  /-- The place of the last token, which is the place of the end where there is no end token. -/
  last : Location
  /-- How many calls may be open at once, if there is a limit. -/
  limit : Option Nat
  deriving DecidableEq, Repr

/-- What the calls of a machine share. -/
structure State where
  /-- The tokens that are not passed. -/
  unread : List Token
  /-- How many levels of nesting are open. -/
  depth : Int
  /-- Whether a name and an opening brace begin a struct literal. -/
  literals : Bool
  collector : Diagnostic.Collector
  deriving DecidableEq, Repr

/-- A complaint and the place of the token that it is about. -/
structure Finding where
  complaint : Complaint
  place : Location
  deriving DecidableEq, Repr

/-- What a machine comes to. -/
inductive Outcome (α : Type) where
  | done (value : α) (state : State)
  /-- The finding of the failure, which is reported already. -/
  | failed (finding : Finding) (state : State)
  /-- Nothing but the reason to stop. -/
  | stopped (halt : Halt)
  deriving Repr

/-- The tokens behind the closing mark of the outermost of some open groups, or from the first end
token on. -/
def behindGroups : Nat → List Token → List Token
  | _, [] => []
  | depth, token :: rest =>
    if !Input.isInside token then token :: rest
    else if token.isMarkOf openers then behindGroups (depth + 1) rest
    else if token.isMarkOf closers then
      if depth ≤ 1 then rest else behindGroups (depth - 1) rest
    else behindGroups depth rest

namespace Setting

variable (setting : Setting)

/-- The first of some tokens, or an end token where there is none. -/
def current (unread : List Token) : Token := unread.headD (.ending setting.last)

/-- The tokens behind the next one, which is not passed if it is an end token. -/
def pass (unread : List Token) : List Token :=
  if Input.isInside (setting.current unread) then unread.tail else unread

/-- The tokens behind the group that begins here, if one does. -/
def passGroup (unread : List Token) : List Token :=
  if (setting.current unread).isMarkOf openers then behindGroups 0 unread else unread

/-- Whether another call may be opened. -/
def hasRoom (opened : Nat) : Bool := setting.limit.all (opened < ·)

end Setting

namespace State

variable (setting : Setting) (state : State)

/-- The state behind the next token, which is not passed if it is an end token. -/
def pass : State := { state with unread := setting.pass state.unread }

/-- What is found of the next token. -/
def found : Option Lexeme := (setting.current state.unread).found

/-- What is found of the token behind the next one. -/
def foundSecond : Option Lexeme := (setting.current state.unread.tail).found

/-- A complaint about the next token. -/
def find (complaint : Option Lexeme → Complaint) : Finding :=
  ⟨complaint (state.found setting), (setting.current state.unread).location⟩

/-- The state in which a finding is reported. -/
def report (finding : Finding) : State :=
  { state with
    collector := state.collector.report .unexpectedToken finding.complaint.message
      (some finding.place) }

end State

namespace Outcome

variable {α β σ : Type}

/-- Goes on from the state behind a value. -/
def bind (outcome : Outcome α) (next : α → State → Outcome β) : Outcome β :=
  match outcome with
  | .done value state => next value state
  | .failed finding state => .failed finding state
  | .stopped halt => .stopped halt

/-- The same outcome in another state. -/
def mapState (change : State → State) : Outcome α → Outcome α
  | .done value state => .done value (change state)
  | .failed finding state => .failed finding (change state)
  | .stopped halt => .stopped halt

/-- Goes round at most once for each of some tokens and once more. In a chain each round is opened
by the one before it. -/
def rounds (chain : Bool) (round : σ → Nat → State → Outcome (Turn σ)) :
    List Token → σ → Nat → State → Outcome σ
  | [], held, opened, state => (round held opened state).bind fun turn behind =>
    match turn with
    | .again _ => .stopped .endless
    | .finish last => .done last behind
  | _ :: fewer, held, opened, state => (round held opened state).bind fun turn behind =>
    match turn with
    | .again next => rounds chain round fewer next (opened + chain.toNat) behind
    | .finish last => .done last behind

/-- A statement, or the complaint in its place where it fails. -/
def recovered : Outcome Statement → Outcome Statement
  | .failed finding state => .done (.error finding.complaint) state
  | outcome => outcome

/-- The outcome where a token is passed if none has been since some tokens were unread. -/
def passing (setting : Setting) (unread : List Token) : Outcome α → Outcome α
  | .done value state =>
    .done value (if state.unread.length < unread.length then state else state.pass setting)
  | outcome => outcome

end Outcome

namespace State

variable (setting : Setting) {α : Type}

/-- Reports that the next token is not what is expected. -/
def complain (expected : Expected) (state : State) : Outcome Complaint :=
  let finding := state.find setting (.unexpected · expected)
  .done finding.complaint (state.report finding)

/-- Fails with a complaint about the next token, and makes a step behind it. -/
def reject (complaint : Option Lexeme → Complaint) (step : List Token → List Token)
    (state : State) : Outcome α :=
  let finding := state.find setting complaint
  .failed finding { state.report finding with unread := step state.unread }

/-- Counts a level up for what is read in it and down behind that. Where no level is left it fails,
and passes the whole group that begins here. -/
def deeper (inner : State → Outcome α) (state : State) : Outcome α :=
  if state.depth < maxNesting then
    (inner { state with depth := state.depth + 1 }).mapState fun behind =>
      { behind with depth := behind.depth - 1 }
  else state.reject setting .nestingTooDeep setting.passGroup

/-- Allows struct literals for what is read in between or forbids them, and sets the switch back to
what it was. -/
def allowing (allowed : Bool) (inner : State → Outcome α) (state : State) : Outcome α :=
  (inner { state with literals := allowed }).mapState fun behind =>
    { behind with literals := state.literals }

end State

end Machine

open Machine in
/-- Carries out an outline where so many calls are open. Whether there is a level left is told by
the count in the state, and whether struct literals may begin by its switch. -/
def Outline.carryOut (setting : Setting) {α : Type} {allowance : Allowance}
    {known : Option Lexeme} {parser : Parser α} :
    Outline allowance known parser → Nat → State → Outcome α
  | .pure value, _, state => .done value state
  | .bind outline next, opened, state =>
    (outline.carryOut setting opened state).bind fun value =>
      (next value).carryOut setting opened
  | @Outline.cond _ _ _ _ _ condition _ yes no, opened, state =>
    if hcondition : condition then (yes hcondition).carryOut setting opened state
    else (no hcondition).carryOut setting opened state
  | .anyway outline, opened, state | .boundary outline, opened, state
  | .plain outline, opened, state => outline.carryOut setting opened state
  | .look atEnd before, opened, state =>
    match state.found setting with
    | none => atEnd.carryOut setting opened state
    | some lexeme => (before lexeme).carryOut setting opened state
  | .second _, _, state => .done (state.foundSecond setting) state
  | .both mark test _, _, state =>
    .done ((setting.current state.unread).isMarkOf [mark] && test (state.foundSecond setting))
      state
  | .advance, _, state => .done () (state.pass setting)
  | .complain expected, _, state => state.complain setting expected
  | .reject expected, _, state => state.reject setting (.unexpected · expected) id
  | .rejectPassing expected, _, state =>
    state.reject setting (.unexpected · expected) setting.pass
  | .numeral text, _, state =>
    match Numeral.read text with
    | .ok value => .done value (state.pass setting)
    | .error error => .stopped (.unreadable error)
  | .repeating chain held round, opened, state =>
    Outcome.rounds chain (fun held => (round held).carryOut setting) state.unread held opened state
  | .nested outline, opened, state => state.deeper setting (outline.carryOut setting opened)
  | .tooDeep _, _, state => state.deeper setting fun _ => .stopped .endless
  | .recovered outline, opened, state => (outline.carryOut setting opened state).recovered
  | .passing outline, opened, state =>
    (outline.carryOut setting opened state).passing setting state.unread
  | .allowing allowed outline, opened, state =>
    state.allowing allowed (outline.carryOut setting opened)
  | .asking _ outline, opened, state => (outline state.literals).carryOut setting opened state
  | .call outline, opened, state =>
    if setting.hasRoom opened then outline.carryOut setting (opened + 1) state
    else .stopped .exhausted

end BraceLang
