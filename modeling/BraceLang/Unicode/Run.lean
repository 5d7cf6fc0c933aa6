/-!
# Runs of code points

The Unicode tables of this library list a character class as runs: pairs of a first and a last
code point, both inside the class.
-/

namespace BraceLang.Unicode

/-- Some run reaches from at most `code` to at least `code`. -/
def inRuns (runs : List (Nat × Nat)) (code : Nat) : Bool :=
  runs.any fun (first, last) => first ≤ code && code ≤ last

/-- Whether every run of some lies inside a run of others, where both are in ascending order. -/
def runsWithin : List (Nat × Nat) → List (Nat × Nat) → Bool
  | inner, [] => inner.isEmpty
  | inner, (before, behind) :: outer =>
    runsWithin (inner.dropWhile fun (first, last) => Nat.ble before first && Nat.ble last behind)
      outer

/-- The characters of runs that lie inside others are characters of the others. -/
theorem inRuns_of_within {inner outer : List (Nat × Nat)} {code : Nat}
    (hwithin : runsWithin inner outer = true) (hcode : inRuns inner code = true) :
    inRuns outer code = true := by
  induction outer generalizing inner with
  | nil =>
    rw [List.isEmpty_iff.mp hwithin] at hcode
    cases hcode
  | cons run outer ih =>
    obtain ⟨before, behind⟩ := run
    unfold runsWithin at hwithin
    rw [inRuns, List.any_cons, Bool.or_eq_true]
    rw [inRuns, ← List.takeWhile_append_dropWhile
      (p := fun (first, last) => Nat.ble before first && Nat.ble last behind) (l := inner),
      List.any_append, Bool.or_eq_true] at hcode
    rcases hcode with hinside | hlater
    · left
      obtain ⟨⟨first, last⟩, hrun, hholds⟩ := List.any_eq_true.mp hinside
      have hwithinRun := List.all_eq_true.mp List.all_takeWhile _ hrun
      simp only [Bool.and_eq_true, Nat.ble_eq, decide_eq_true_eq] at hholds hwithinRun ⊢
      omega
    · exact .inr (ih hwithin hlater)

/-- Some run holds `code` at an even distance from its first code point, which is how
capital letters alternate with their small forms. -/
def inAlternatingRuns (runs : List (Nat × Nat)) (code : Nat) : Bool :=
  runs.any fun (first, last) => first ≤ code && code ≤ last && (code - first) % 2 == 0

end BraceLang.Unicode
