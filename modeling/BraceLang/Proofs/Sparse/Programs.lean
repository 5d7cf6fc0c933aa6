import BraceLang.Proofs.Recovery.Resynchronisation
import BraceLang.Proofs.Sparse.Grammar
import Mathlib.Algebra.Order.BigOperators.Group.Finset

/-!
# Diagnostics do not flood

The reports about a program are in the order of its tokens. No token but the end has more than two
of them, and the end has no more than two for each statement that it breaks off and one for each
block around that. So there are at most two diagnostics for each token, and a few more.
-/

namespace BraceLang

/-- The reports about a program are sparse. -/
theorem program_sparse {options : Options} {unread rest : List Lexeme} {program : List Statement}
    {reports : List Report}
    (hdone : Parser.program options unread = .done program rest reports) :
    SparseRun unread rest reports 1 (maxNesting + 2) := by
  have hinside : InsideSparse maxNesting (Parser.outermost options) :=
    layerInside_sparse options maxNesting
  exact (hinside.statement.statements hdone).1

/-- How many tokens of an input stand in front of the one that a report is about. -/
def Input.positionOf (input : Input) (report : Report) : Nat :=
  input.tokens.size - report.left

section Positions

variable {input : Input} {reports : List Report}

/-- Reports in the order of the input have positions in that order. -/
theorem Input.pairwise_positions
    (hreports : reports.Pairwise fun earlier later => later.left ≤ earlier.left) :
    (reports.map input.positionOf).Pairwise (· ≤ ·) :=
  List.pairwise_map.mpr <| hreports.imp fun hle => Nat.sub_le_sub_left hle _

/-- The reports with a position are those about the place there. -/
theorem Input.count_positions (hplaces : ∀ report ∈ reports, report.left ≤ input.tokens.size)
    {position : Nat} (hposition : position ≤ input.tokens.size) :
    (reports.map input.positionOf).count position =
      reportsAt (input.tokens.size - position) reports := by
  rw [List.count_eq_countP, List.countP_map, reportsAt]
  refine List.countP_congr fun report hmem => ?_
  have hleft := hplaces report hmem
  simp only [Function.comp_apply, positionOf, beq_iff_eq]
  omega

/-- There are no more positions than the counts of them allow. -/
theorem length_le_of_count {positions : List Nat} {size ending : Nat}
    (hbound : ∀ position ∈ positions, position ≤ size)
    (htwice : ∀ position < size, positions.count position ≤ 2)
    (hending : positions.count size ≤ ending) : positions.length ≤ 2 * size + ending := by
  have hmem : ∀ position ∈ (positions : Multiset Nat), position ∈ Finset.range (size + 1) := by
    intro position hposition
    exact Finset.mem_range_succ_iff.mpr (hbound position hposition)
  have hsum : ∑ position ∈ Finset.range size, positions.count position ≤ 2 * size := by
    calc ∑ position ∈ Finset.range size, positions.count position
        ≤ ∑ _position ∈ Finset.range size, 2 :=
          Finset.sum_le_sum fun position hposition =>
            htwice position (Finset.mem_range.mp hposition)
      _ = (Finset.range size).card * 2 := Finset.sum_const_nat fun _ _ => rfl
      _ = 2 * size := by rw [Finset.card_range, Nat.mul_comm]
  calc positions.length
      = ∑ position ∈ Finset.range (size + 1), positions.count position := by
        simpa using (Multiset.sum_count_eq_card hmem).symm
    _ = ∑ position ∈ Finset.range size, positions.count position + positions.count size :=
        Finset.sum_range_succ _ _
    _ ≤ 2 * size + ending := Nat.add_le_add hsum hending

end Positions

/-- The diagnostics for tokens are reported on tokens in their order: on no token before the end
more than twice, and on the end no more often than levels may be opened, and twice. So there are at
most two for each token, and sixty-six. -/
theorem parseTokens_sparse {tokens : List Token} {source : Option String} {options : Options}
    {program : List Statement} {diagnostics : List Diagnostic}
    (hparsed : parseTokens tokens source options = .ok (program, diagnostics)) :
    let input := Input.ofTokens tokens
    let size := (tokens.takeWhile Input.isInside).length
    ∃ reports : List Report,
      input.parse options = .ok ⟨program, reports⟩ ∧
      diagnostics = (input.reportTo reports (.empty source)).reported ∧
      (∀ report ∈ reports, input.positionOf report ≤ size ∧
        ∀ token, tokens[input.positionOf report]? = some token →
          report.complaint.found = token.found ∧ input.placeOf report = token.location) ∧
      (reports.map input.positionOf).Pairwise (· ≤ ·) ∧
      (∀ position < size, (reports.map input.positionOf).count position ≤ 2) ∧
      (reports.map input.positionOf).count size ≤ maxNesting + 2 ∧
      diagnostics.length ≤ 2 * size + 66 := by
  intro input size
  obtain ⟨reports, hdone, hdiagnostics⟩ := parseTokens_eq_ok hparsed
  have hsparse := program_sparse hdone
  have hsize : input.tokens.size = size := by simp [input, size, Input.ofTokens]
  have hlength : input.lexemes.length = size := by rw [Input.length_lexemes, hsize]
  have hplaces : ∀ report ∈ reports, report.left ≤ input.tokens.size :=
    fun report hmem => (Input.report_of_program hdone hmem).1
  have hbound : ∀ position ∈ reports.map input.positionOf, position ≤ size := by
    intro position hposition
    obtain ⟨report, -, rfl⟩ := List.mem_map.mp hposition
    rw [← hsize]
    exact Nat.sub_le _ _
  have htwice : ∀ position < size, (reports.map input.positionOf).count position ≤ 2 := by
    intro position hposition
    rw [Input.count_positions hplaces (by omega)]
    exact hsparse.twice (by omega)
  have hending : (reports.map input.positionOf).count size ≤ maxNesting + 2 := by
    rw [Input.count_positions hplaces (by omega), hsize, Nat.sub_self]
    exact hsparse.ending
  refine ⟨reports, ?_, hdiagnostics, fun report hmem => ⟨?_, fun token htoken => ?_⟩,
    Input.pairwise_positions hsparse.run.pairwise_left, htwice, hending, ?_⟩
  · rw [Input.parse, hdone]
  · exact hbound _ (List.mem_map_of_mem hmem)
  · have hinside : input.tokens.size - report.left < tokens.length :=
      (List.getElem?_eq_some_iff.mp htoken).1
    have hat := Input.getElem?_eq_tokenAt hinside
    obtain rfl := Option.some.inj (hat.symm.trans htoken)
    exact ⟨(Input.report_of_program hdone hmem).2, rfl⟩
  · rw [hdiagnostics, Input.reportTo_reported, ← List.length_map input.positionOf]
    exact length_le_of_count hbound htwice hending

/-- A parenthesis that closes nothing has two of three diagnostics: a semicolon is missing in front
of it, and it begins no statement. -/
theorem parseTokens_sparse_twice :
    let tokens := [⟨.identifier, "x"⟩, ⟨.symbol, ")"⟩].map fun lexeme =>
      Token.mk lexeme (.start "main")
    let input := Input.ofTokens tokens
    ∃ program diagnostics reports,
      parseTokens tokens none {} = .ok (program, diagnostics) ∧
      input.parse {} = .ok ⟨program, reports⟩ ∧
      reports.map input.positionOf = [1, 1, 2] ∧
      (reports.map input.positionOf).count 1 ≤ 2 ∧ diagnostics.length ≤ 2 * 2 + 66 := by
  intro tokens input
  have hreply : ∃ program reports, Parser.program {} (tokens.map Token.toLexeme) =
      .done program [] reports ∧ reports.map input.positionOf = [1, 1, 2] := ⟨_, _, rfl, rfl⟩
  obtain ⟨program, own, hdone, hown⟩ := hreply
  have hlexemes : input.lexemes = tokens.map Token.toLexeme := rfl
  rw [← hlexemes] at hdone
  have hparsed := parseTokens_of_done none hdone
  obtain ⟨reports, hparse, -, -, -, htwice, -, hlength⟩ := parseTokens_sparse hparsed
  -- both come from the same parse
  have hsame : input.parse {} = .ok ⟨program, own⟩ := by
    rw [Input.parse, hdone]
  obtain ⟨-, rfl⟩ := Parsed.mk.inj (Except.ok.inj (hparse.symm.trans hsame))
  exact ⟨program, _, reports, hparsed, hparse, hown, htwice 1 (by decide), hlength⟩

end BraceLang
