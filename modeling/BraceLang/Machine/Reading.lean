import BraceLang.Machine.Basic
import BraceLang.Source.Lexer

/-!
# Reading programs with the machine

A program is read from tokens, or from a source whose tokens a lexer reads first. The lexer and the
machine then share one collector. A session calls any entries one after the other on one state, and
takes note of what comes of each.
-/

namespace BraceLang

namespace Machine

/-- The state before anything is read. -/
def State.start (tokens : List Token) (collector : Diagnostic.Collector) : State where
  unread := tokens
  depth := 0
  literals := true
  collector := collector

/-- What stays the same while some tokens are read. -/
def Setting.over (tokens : List Token) (limit : Option Nat) : Setting where
  last := Input.lastPlace tokens
  limit := limit

/-- Reads a program from tokens and reports to a collector. A program never fails, so the case of a
failure is not reached; it stands for the program that is nothing but the complaint. -/
def readProgram (tokens : List Token) (collector : Diagnostic.Collector) (options : Options)
    (limit : Option Nat) : Except Halt (List Statement × Diagnostic.Collector) :=
  match (programOutline options).carryOut (.over tokens limit) 0 (.start tokens collector) with
  | .done program state => .ok (program, state.collector)
  | .failed finding state => .ok ([.error finding.complaint], state.collector)
  | .stopped halt => .error halt

end Machine

open Machine

/-- Reads a program from tokens. The source of the tokens, if given, is for the lines in the
diagnostics. -/
def readTokens (tokens : List Token) (source : Option String) (options : Options)
    (limit : Option Nat := none) : Except Halt (List Statement × List Diagnostic) := do
  let (program, collector) ← readProgram tokens (.empty source) options limit
  return (program, collector.reported)

/-- Reads the tokens of a source and a program from them, with one collector for both. -/
def readSource (source : String) (keywords : List String) (file : String) (options : Options)
    (limit : Option Nat := none) : Except Halt (List Statement × Diagnostic.Collector) :=
  let lexer := (Source.Lexer.start source keywords file).call
  readProgram lexer.tokens.toList lexer.collector options limit

/-- A machine over tokens whose calls share one state. -/
structure SharedSession where
  tokens : List Token
  /-- How many calls may be open at once, if there is a limit. -/
  limit : Option Nat
  state : State
  deriving DecidableEq, Repr

/-- What is seen of a call. -/
structure Observation where
  /-- The value, or the message of the error and its place. -/
  result : Except (String × Location) Tree.Node
  /-- The diagnostics that are new. -/
  diagnostics : List Diagnostic
  /-- The token that is read next. -/
  next : Token

namespace SharedSession

/-- The session over tokens before the first call. The source of the tokens, if given, is for the
lines in the diagnostics. -/
def start (tokens : List Token) (source : Option String) (limit : Option Nat := none) :
    SharedSession where
  tokens := tokens
  limit := limit
  state := .start tokens (.empty source)

/-- How many tokens have been passed. -/
def position (session : SharedSession) : Nat :=
  session.tokens.length - session.state.unread.length

/-- The token that is read next. -/
def next (session : SharedSession) : Token :=
  (Setting.over session.tokens session.limit).current session.state.unread

/-- Calls an entry: its value or the finding of its failure, and the session behind it. -/
def call (options : Options) (session : SharedSession) (entry : Entry) :
    Except Halt (Except Finding Tree.Node × SharedSession) :=
  match (entry.outline options).carryOut (.over session.tokens session.limit) 0 session.state with
  | .done node state => .ok (.ok node, { session with state })
  | .failed finding state => .ok (.error finding, { session with state })
  | .stopped halt => .error halt

/-- Calls entries one after the other. An error does not keep from the next call. -/
def calls (options : Options) (session : SharedSession) : List Entry → Except Halt SharedSession
  | [] => .ok session
  | entry :: entries => do
    let (_, after) ← call options session entry
    calls options after entries

/-- What is seen of a call. -/
def observe (options : Options) (session : SharedSession) (entry : Entry) :
    Except Halt Observation := do
  let (result, after) ← call options session entry
  return {
    result := result.mapError fun finding => (finding.complaint.message, finding.place)
    diagnostics := after.state.collector.reported.drop session.state.collector.reported.length
    next := after.next }

end SharedSession

end BraceLang
