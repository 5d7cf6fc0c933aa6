import BraceLang.Proofs.Source.Layout
import BraceLang.Source.Lexer
import Mathlib.Logic.Function.Iterate

/-!
# Calling a lexer

A lexer reads piece by piece, and reads what the scan of its source finds: its tokens are those of
the pieces, and a fault goes to its collector behind whatever that holds. The first call does all
the reading, so each further one adds an end token and nothing else.
-/

namespace BraceLang.Source

namespace Lexer

/-- A lexer has read what a scan finds. -/
structure Reads (lexer behind : Lexer) (scan : Scan) : Prop where
  tokens : behind.tokens.toList =
    lexer.tokens.toList ++ tokensAt lexer.keywords lexer.place scan.pieces
  place : behind.place = match scan.fault with
    | some (fault, text) =>
      (lexer.place.advance (textOf scan.pieces)).advance (fault.passed text)
    | none => lexer.place.advance (textOf scan.pieces)
  collector : behind.collector = match scan.fault with
    | some (fault, _) => lexer.collector.report fault.kind fault.message
        (some (lexer.place.advance (textOf scan.pieces)))
    | none => lexer.collector

/-- A piece that is passed is in front of what is read behind it. -/
theorem Reads.behind_pass {lexer behind : Lexer} {piece : Piece} {after : List Char}
    {pieces : List Piece} {fault : Option (Fault × List Char)}
    (hreads : (lexer.pass piece after).Reads behind ⟨pieces, fault⟩) :
    lexer.Reads behind ⟨piece :: pieces, fault⟩ := by
  have hplace : lexer.place.advance (textOf (piece :: pieces)) =
      (lexer.pass piece after).place.advance (textOf pieces) := by
    rw [textOf, List.flatMap_cons, Location.advance_append]
    rfl
  obtain ⟨htokens, hbehind, hcollector⟩ := hreads
  refine ⟨?_, ?_, ?_⟩
  · rw [htokens, tokensAt]
    unfold pass
    cases piece.lexeme? lexer.keywords with
    | none => rfl
    | some lexeme =>
      simp only [Array.toList_push, List.append_assoc, List.singleton_append]
  · rw [hbehind, hplace]
  · rw [hcollector, hplace]
    rfl

/-- A lexer that has nothing to read. -/
def Spent (lexer : Lexer) : Prop := lexer.halted = true ∨ lexer.unread = []

variable {lexer : Lexer} {c : Char} {rest : List Char}

/-- A piece that is next is passed. -/
theorem read_of_piece {piece : Piece} {after : List Char} (fuel : Nat)
    (hgoing : lexer.halted = false) (hunread : lexer.unread = c :: rest)
    (hpiece : nextPiece lexer.afterWord c rest = .ok (piece, after)) :
    lexer.read (fuel + 1) = (lexer.pass piece after).read fuel := by
  rw [read, hgoing, hunread]
  simp only [hpiece]

/-- A fault that is next is reported. -/
theorem read_of_fault {fault : Fault} (fuel : Nat) (hgoing : lexer.halted = false)
    (hunread : lexer.unread = c :: rest)
    (hfault : nextPiece lexer.afterWord c rest = .error fault) :
    lexer.read (fuel + 1) = lexer.halt fault := by
  rw [read, hgoing, hunread]
  simp only [hfault]

/-- A lexer that has nothing to read stays as it is. -/
theorem Spent.read (hspent : lexer.Spent) (fuel : Nat) : lexer.read fuel = lexer := by
  cases fuel with
  | zero => rfl
  | succ fuel =>
    rw [Lexer.read]
    obtain hhalted | hnil := hspent
    · rw [hhalted]
    · rw [hnil]
      cases lexer.halted <;> rfl

/-- The end token that a call adds is all that it changes of a lexer that has nothing to read. -/
theorem Spent.call (hspent : lexer.Spent) : lexer.call = lexer.finish := by
  rw [Lexer.call, hspent.read]

/-- A lexer that is not stopped reads what the scan of its text finds, and nothing is left. The
induction is on the number of pieces that it may read, which is enough where there are no more
characters. -/
theorem read_reads (fuel : Nat) (lexer : Lexer) (hgoing : lexer.halted = false)
    (hfuel : lexer.unread.length ≤ fuel) :
    lexer.Reads (lexer.read fuel) (scanFrom fuel lexer.afterWord lexer.unread) ∧
      (lexer.read fuel).Spent := by
  induction fuel generalizing lexer with
  | zero =>
    have hnil : lexer.unread = [] := List.length_eq_zero_iff.mp (Nat.le_zero.mp hfuel)
    rw [hnil, scanFrom, read]
    exact ⟨⟨(List.append_nil _).symm, rfl, rfl⟩, .inr hnil⟩
  | succ fuel ih =>
    cases hunread : lexer.unread with
    | nil =>
      have hspent : lexer.Spent := .inr hunread
      rw [hspent.read, scanFrom]
      exact ⟨⟨(List.append_nil _).symm, rfl, rfl⟩, hspent⟩
    | cons c rest =>
      cases hpiece : nextPiece lexer.afterWord c rest with
      | error fault =>
        rw [read_of_fault fuel hgoing hunread hpiece, scanFrom, hpiece]
        refine ⟨⟨(List.append_nil _).symm, ?_, rfl⟩, .inl rfl⟩
        rw [halt, hunread]
        rfl
      | ok found =>
        obtain ⟨piece, after⟩ := found
        have hshorter := length_lt_of_nextPiece hpiece
        rw [hunread] at hfuel
        have hafter : after.length ≤ fuel := by omega
        obtain ⟨hreads, hspent⟩ := ih (lexer.pass piece after) hgoing hafter
        rw [read_of_piece fuel hgoing hunread hpiece, scanFrom_of_nextPiece hpiece rfl]
        exact ⟨hreads.behind_pass, hspent⟩

section Calls

variable (source : String) (keywords : List String) (file : String)
  (collector : Diagnostic.Collector)

/-- The first call reads the tokens of the source, and reports its fault behind what the collector
holds. Nothing is left to read. -/
theorem call_start :
    let result := tokenization source keywords file
    let lexer := (start source keywords file collector).call
    lexer.tokens.toList = result.complete ∧ lexer.place = result.stop ∧
      lexer.collector = result.reportTo (collector.attach (some source)) ∧ lexer.Spent := by
  intro result lexer
  let first := start source keywords file collector
  have hread : first.Reads (first.read source.toList.length) (scan source.toList) ∧
      (first.read source.toList.length).Spent := read_reads _ first rfl (Nat.le_refl _)
  obtain ⟨⟨htokens, hplace, hcollector⟩, hspent⟩ := hread
  have hstop : (first.read source.toList.length).place = result.stop := hplace
  refine ⟨?_, hstop, ?_, hspent⟩
  · have hfinish : lexer.tokens.toList =
        (first.read source.toList.length).tokens.toList ++ [Token.ending result.stop] := by
      rw [← hstop]
      exact Array.toList_push
    rw [hfinish, htokens]
    rfl
  · have hsame : lexer.collector = (first.read source.toList.length).collector := rfl
    rw [hsame, hcollector]
    simp only [result, tokenization, Tokenization.reportTo]
    cases (scan source.toList).fault <;> rfl

/-- However often a lexer is called, it gives the tokens of the source with an end token for each
call, and reports what the first call reports. -/
theorem calls_start (more : Nat) :
    let result := tokenization source keywords file
    let lexer := Lexer.call^[more + 1] (start source keywords file collector)
    lexer.tokens.toList = result.complete (more + 1) ∧ lexer.place = result.stop ∧
      lexer.collector = result.reportTo (collector.attach (some source)) ∧ lexer.Spent := by
  intro result
  induction more with
  | zero => exact call_start source keywords file collector
  | succ more ih =>
    obtain ⟨htokens, hplace, hcollector, hspent⟩ := ih
    rw [Function.iterate_succ_apply', hspent.call]
    refine ⟨?_, hplace, hcollector, hspent⟩
    rw [finish, Array.toList_push, htokens, hplace, Tokenization.complete, Tokenization.complete,
      List.replicate_succ' (n := more + 1), List.append_assoc]

end Calls

end Lexer

end BraceLang.Source
