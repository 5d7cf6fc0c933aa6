import BraceLang.Proofs.Nesting.Depth
import BraceLang.Proofs.Parsing.Completion
import BraceLang.Proofs.Printing.Programs

/-!
# Chains of branches

The limit of nesting bounds the length of paths in parsed trees as long as the way from a branch of
a conditional statement to the next one is free. Such a step opens no level, however, and in the
tree the next branch lies inside the one before. So if it counts, paths are as much longer as they
go to further branches, and there is no bound for all of them: a statement of enough branches
exceeds every one, and nothing is reported about it.
-/

namespace BraceLang

open BraceLang.Tree (Node Value)
open BraceLang.Tree.Node (isChainEdge isBranchEdge isLoopEdge Path)

namespace Tree.Node

/-- No path takes more than so many edges to a further branch. -/
def BranchesWithin (most : Nat) (node : Node) : Prop :=
  node.Within (fun node key child => !isBranchEdge node key child) most

end Tree.Node

/-- A branch that tests a name and does nothing. -/
def Branch.bare : Branch := .mk (.name ⟨"a", []⟩) []

/-- A conditional statement of a bare branch and further ones. -/
def Statement.chained (further : Nat) : Statement :=
  .conditional .bare (List.replicate further .bare) none

/-- The tokens of a conditional statement of bare branches. -/
def Statement.chainedTokens (further : Nat) : List Token :=
  (Printing.statements (fun _ => false) [.chained further]).map (Token.mk · (.start "main"))

namespace Branch

/-- Bare branches can be printed. -/
theorem arePrintable_bare (options : Options) (count : Nat) :
    Branch.arePrintable options (List.replicate count .bare) = true := by
  induction count with
  | zero => rfl
  | succ count ih =>
    rw [List.replicate_succ, Branch.arePrintable, ih]
    rfl

/-- However many bare branches there are, they open one level. -/
theorem maxLevels_bare (count : Nat) : Branch.maxLevels (List.replicate count .bare) ≤ 1 := by
  induction count with
  | zero => exact Nat.zero_le 1
  | succ count ih =>
    rw [List.replicate_succ, Branch.maxLevels]
    exact Nat.max_le.mpr ⟨Nat.le_refl 1, ih⟩

/-- What a bare branch is printed as. -/
theorem print_bare (worded : String → Bool) : Printing.branch worded .bare =
    [.mark "(", .identifier "a", .mark ")", .mark "\x7b", .mark "\x7d"] := rfl

/-- What bare branches are printed as holds no end of input. -/
theorem kind_ne_of_mem_bare {worded : String → Bool} (count : Nat) :
    ∀ lexeme ∈ Printing.branches worded (List.replicate count .bare),
      lexeme.kind ≠ .endOfInput := by
  induction count with
  | zero => exact fun _ hmem => nomatch hmem
  | succ count ih =>
    have hfirst : ∀ lexeme ∈ Lexeme.keyword "else" :: .keyword "if" :: Printing.branch worded .bare,
        lexeme.kind ≠ .endOfInput := by
      rw [print_bare]
      decide
    exact List.forall_mem_append.mpr ⟨hfirst, ih⟩

end Branch

namespace Statement

/-- What a conditional statement of bare branches is printed as. -/
theorem print_chained (worded : String → Bool) (further : Nat) :
    Printing.statements worded [.chained further] =
      .keyword "if" :: (Printing.branch worded .bare ++
        Printing.branches worded (List.replicate further .bare)) := by
  simp [chained]

/-- Every token of a conditional statement of bare branches stands in front of the end. -/
theorem isInside_of_mem_chainedTokens {further : Nat} :
    ∀ token ∈ chainedTokens further, Input.isInside token = true := by
  have hfirst : ∀ lexeme ∈ Printing.branch (fun _ => false) .bare, lexeme.kind ≠ .endOfInput := by
    decide
  have hothers := @Branch.kind_ne_of_mem_bare (fun _ => false) further
  refine List.forall_mem_map.mpr fun lexeme hlexeme => bne_iff_ne.mpr ?_
  rw [print_chained] at hlexeme
  rcases List.mem_cons.mp hlexeme with rfl | hlexeme
  · exact nofun
  · exact List.forall_mem_append.mpr ⟨hfirst, hothers⟩ lexeme hlexeme

/-- All of them are lexemes of the input. -/
theorem lexemes_chainedTokens (further : Nat) :
    (Input.ofTokens (chainedTokens further)).lexemes =
      Printing.statements (fun _ => false) [.chained further] := by
  rw [Input.lexemes_of_inside isInside_of_mem_chainedTokens, chainedTokens, List.map_map]
  exact List.map_id _

/-- A conditional statement of bare branches is parsed, and nothing is reported. -/
theorem parseTokens_chainedTokens (further : Nat) (source : Option String) (options : Options) :
    parseTokens (chainedTokens further) source options = .ok ([.chained further], []) := by
  have hprintable : Statement.arePrintable options [.chained further] = true := by
    have hothers := Branch.arePrintable_bare options further
    have hfirst : Branch.isPrintable options .bare = true := rfl
    rw [Statement.arePrintable, chained, Statement.isPrintable, hfirst, hothers]
    rfl
  have hlevels : Statement.maxLevels [.chained further] ≤ maxNesting := by
    have hothers := Branch.maxLevels_bare further
    have hfirst : Branch.levels .bare = 1 := rfl
    simp only [Statement.maxLevels, chained, Statement.levels, Statement.otherwiseLevels, hfirst,
      maxNesting]
    omega
  have hread : Parser.program options (Printing.statements (fun _ => false) [.chained further]) =
      .done [.chained further] [] [] := program_reads hprintable hlevels
  rw [← lexemes_chainedTokens] at hread
  exact parseTokens_of_done source hread

/-- Each further branch is one edge further away. -/
theorem path_chained (further : Nat) :
    ∃ last, Path isChainEdge (Statement.chained further).toNode further last := by
  induction further with
  | zero => exact ⟨_, .here _⟩
  | succ further ih =>
    obtain ⟨last, hpath⟩ := ih
    have hedge : (some (.text "else"), (Statement.chained further).toNode) ∈
        (Statement.chained (further + 1)).toNode.edges :=
      List.mem_of_getLast? rfl
    -- The edge leads from a conditional statement, so it is none to an operand or to a scope.
    exact ⟨last, .counted hedge rfl hpath⟩

/-- The paths of a conditional statement of bare branches are longer than there are branches. -/
theorem not_within_chained {bound further : Nat} (hfurther : bound ≤ further) :
    ¬ (Statement.blockToNode [.chained further]).Within isChainEdge bound := by
  intro hwithin
  obtain ⟨last, hpath⟩ := path_chained further
  have hedge : (none, (Statement.chained further).toNode) ∈
      (Statement.blockToNode [.chained further]).edges := List.mem_singleton_self _
  have hlength := hwithin _ _ (.counted hedge rfl hpath)
  omega

/-- No path goes to more further branches than there are. -/
theorem branchesWithin_chained (further : Nat) :
    (Statement.blockToNode [.chained further]).BranchesWithin further := by
  have hname (bound : Nat) : ((Expression.name ⟨"a", []⟩).toNode.toValue).Within
      (fun node key child => !isBranchEdge node key child) bound :=
    (Value.within_toValue _).mpr (.leaf _)
  have hblock (bound : Nat) : (Node.block []).toValue.Within
      (fun node key child => !isBranchEdge node key child) bound :=
    (Value.within_toValue _).mpr (.of_edges fun _ _ hedge => nomatch hedge)
  have hchained : (Statement.chained further).toNode.BranchesWithin further := by
    induction further with
    | zero =>
      refine .named (List.forall_mem_cons.mpr ⟨.inr ⟨hname 0, fun _ _ => rfl⟩,
        List.forall_mem_cons.mpr ⟨.inr ⟨hblock 0, fun _ _ => rfl⟩,
          List.forall_mem_singleton.mpr (.inr ?_)⟩⟩)
      exact ⟨Value.within_atom .null, fun _ hchild => nomatch hchild⟩
    | succ further ih =>
      refine .named (List.forall_mem_cons.mpr ⟨.inr ⟨hname _, fun _ _ => rfl⟩,
        List.forall_mem_cons.mpr ⟨.inr ⟨hblock _, fun _ _ => rfl⟩,
          List.forall_mem_singleton.mpr (.inl ?_)⟩⟩)
      exact ⟨further, Nat.lt_succ_self further, (Value.within_toValue _).mpr ih⟩
  refine .of_edges fun key child hedge => .inl ?_
  obtain ⟨rfl, rfl⟩ := Prod.mk.inj (List.mem_singleton.mp hedge)
  exact ⟨rfl, hchained⟩

end Statement

/-- Whatever is parsed, paths in its tree are bounded if the edges to what loops read are free,
those to further branches of conditional statements among them. If those count, the bound grows with
how many of them a path takes. -/
theorem parseTokens_nesting {tokens : List Token} {source : Option String} {options : Options}
    {program : List Statement} {diagnostics : List Diagnostic}
    (hparsed : parseTokens tokens source options = .ok (program, diagnostics)) :
    (Statement.blockToNode program).Within isLoopEdge (10 * maxNesting + 10) ∧
      ∀ branches, (Statement.blockToNode program).BranchesWithin branches →
        (Statement.blockToNode program).Within isChainEdge (10 * maxNesting + 10 + branches) := by
  obtain ⟨reports, hprogram, -⟩ := parseTokens_eq_ok hparsed
  have hcomposed := composed_of_program hprogram
  have hwithin : (Statement.blockToNode program).Within isLoopEdge (10 * maxNesting + 10) :=
    Node.block_within fun statement hmem => (hcomposed statement hmem).within
  refine ⟨hwithin, fun branches hbranches length last hpath => ?_⟩
  have hfree (node : Node) (key : Option Atom) (child : Node)
      (hloop : isLoopEdge node key child = true) (hbranch : (!isBranchEdge node key child) = true) :
      isChainEdge node key child = true := by
    simp_all [isLoopEdge]
  -- Each edge that counts is either read by no loop or leads to a further branch.
  obtain ⟨first, second, hfirst, hsecond, hlength⟩ := hpath.exists_le hfree
  have hfirst := hwithin first last hfirst
  have hsecond := hbranches second last hsecond
  omega

/-- The tree of a conditional statement of 651 branches has a path that is longer than is possible
with the edges to further branches free, but not by more than these. -/
theorem parseTokens_nesting_chained :
    parseTokens (Statement.chainedTokens 650) none {} = .ok ([.chained 650], []) ∧
      (Statement.blockToNode [.chained 650]).Within isLoopEdge 650 ∧
      ¬ (Statement.blockToNode [.chained 650]).Within isChainEdge 650 ∧
      (Statement.blockToNode [.chained 650]).Within isChainEdge 1300 := by
  have hparsed := Statement.parseTokens_chainedTokens 650 none {}
  have hbranches := Statement.branchesWithin_chained 650
  have hwithin := parseTokens_nesting hparsed
  exact ⟨hparsed, hwithin.1, Statement.not_within_chained (Nat.le_refl 650),
    hwithin.2 650 hbranches⟩

/-- No bound holds for the trees of all tokens that are parsed without a report, if the edges to
further branches count. -/
theorem exists_parseTokens_not_within (bound : Nat) (source : Option String) (options : Options) :
    ∃ tokens program, parseTokens tokens source options = .ok (program, []) ∧
      ¬ (Statement.blockToNode program).Within isChainEdge bound := by
  have hparsed := Statement.parseTokens_chainedTokens bound source options
  exact ⟨_, _, hparsed, Statement.not_within_chained (Nat.le_refl bound)⟩

end BraceLang
