import BraceLang.Data.Datum

/-!
# What can be written

A datum is written from the outside inwards, and every value that is being written takes room. It
can be written exactly if each of its integers can and there is room for the values that stand
inside one another. So it makes no difference to this which of two errors would come first.
-/

namespace BraceLang

/-- Room for one value more is room for the value around it and for those inside. -/
private theorem le_pred_iff {room depth : Nat} (hroom : room ≠ 0) :
    depth ≤ room - 1 ↔ depth + 1 ≤ room := by
  omega

/-- An atom can be written if it can by itself and there is room for it. -/
theorem Atom.writingError?_eq_none {atom : Atom} {room : Nat} :
    atom.writingError? room = none ↔ atom.isWritable = true ∧ atom.depth ≤ room := by
  unfold writingError?
  by_cases hdeep : room < atom.depth
  · simp [hdeep]
  · by_cases hwritable : atom.isWritable = true
    · simp [hdeep, hwritable, Nat.le_of_not_lt hdeep]
    · simp [hdeep, hwritable]

/-- There is room for some atoms if there is for each of them. -/
theorem Atom.depthOfAll_le {atoms : List Atom} {room : Nat} :
    Atom.depthOfAll atoms ≤ room ↔ ∀ atom ∈ atoms, atom.depth ≤ room := by
  induction atoms with
  | nil => simp [depthOfAll]
  | cons atom rest ih => rw [depthOfAll, Nat.max_le, ih, List.forall_mem_cons]

namespace Datum

mutual

/-- A datum can be written exactly if all of its atoms can and there is room for as many values as
stand inside one another. -/
theorem writingError?_eq_none (datum : Datum) (room : Nat) :
    datum.writingError? room = none ↔ datum.isWritable = true ∧ datum.depth ≤ room := by
  cases datum with
  | atom value => exact Atom.writingError?_eq_none
  | list items =>
    have hitems := errorInItems?_eq_none items (room - 1)
    rw [writingError?, isWritable, depth]
    by_cases hroom : room = 0
    · simp [hroom]
    · rw [if_neg hroom, hitems, le_pred_iff hroom]
  | record fields =>
    have hfields := errorInFields?_eq_none fields (room - 1)
    rw [writingError?, isWritable, depth]
    by_cases hroom : room = 0
    · simp [hroom]
    · rw [if_neg hroom, hfields, le_pred_iff hroom]
  | set members =>
    cases members with
    | nil =>
      rw [writingError?, isWritable, depth]
      by_cases hroom : room = 0
      · simp [hroom]
      · simp [hroom, Nat.one_le_iff_ne_zero]
    | cons first rest =>
      rw [writingError?, isWritable, depth]
      by_cases hroom : room < 2
      · have hdeep : ¬Atom.depthOfAll (first :: rest) + 2 ≤ room := by omega
        simp [hroom, hdeep]
      · have hdeep : Atom.depthOfAll (first :: rest) + 2 ≤ room ↔
            ∀ atom ∈ first :: rest, atom.depth ≤ room - 2 := by
          rw [← Atom.depthOfAll_le]
          omega
        rw [if_neg hroom, hdeep, List.findSome?_eq_none_iff, List.all_eq_true]
        simp only [Atom.writingError?_eq_none]
        exact ⟨fun h => ⟨fun atom hatom => (h atom hatom).1, fun atom hatom => (h atom hatom).2⟩,
          fun h atom hatom => ⟨h.1 atom hatom, h.2 atom hatom⟩⟩
  | pair first second =>
    have hfirst := writingError?_eq_none first (room - 1)
    have hsecond := writingError?_eq_none second (room - 1)
    rw [writingError?, isWritable, depth]
    by_cases hroom : room = 0
    · simp [hroom]
    · rw [if_neg hroom, ← le_pred_iff hroom, Nat.max_le, Option.or_eq_none_iff, hfirst, hsecond,
        Bool.and_eq_true, and_and_and_comm]
  | loop brackets =>
    rw [writingError?, isWritable, depth]
    by_cases hroom : room = 0
    · simp [hroom]
    · simp [hroom, Nat.one_le_iff_ne_zero]

/-- So can the items of a list. -/
theorem errorInItems?_eq_none (items : List Datum) (room : Nat) :
    errorInItems? items room = none ↔ areWritable items = true ∧ depthOfItems items ≤ room := by
  cases items with
  | nil => simp [errorInItems?, areWritable, depthOfItems]
  | cons item rest =>
    have hitem := writingError?_eq_none item room
    have hrest := errorInItems?_eq_none rest room
    rw [errorInItems?, areWritable, depthOfItems, Option.or_eq_none_iff, hitem, hrest, Nat.max_le,
      Bool.and_eq_true, and_and_and_comm]

/-- So can the keys and values of a record. -/
theorem errorInFields?_eq_none (fields : List (Atom × Datum)) (room : Nat) :
    errorInFields? fields room = none ↔
      haveWritable fields = true ∧ depthOfFields fields ≤ room := by
  cases fields with
  | nil => simp [errorInFields?, haveWritable, depthOfFields]
  | cons field rest =>
    obtain ⟨key, value⟩ := field
    have hvalue := writingError?_eq_none value room
    have hrest := errorInFields?_eq_none rest room
    have hfield : (key.writingError? room).or (value.writingError? room) = none ↔
        (key.isWritable && value.isWritable) = true ∧ max key.depth value.depth ≤ room := by
      rw [Option.or_eq_none_iff, Atom.writingError?_eq_none, hvalue, Nat.max_le, Bool.and_eq_true,
        and_and_and_comm]
    rw [errorInFields?, haveWritable, depthOfFields, Option.or_eq_none_iff, hfield, hrest,
      and_and_and_comm, ← Nat.max_le, ← Bool.and_eq_true]

end

end Datum

/-- A list in a list needs room for two lists and for what is in the inner one. -/
example : (Datum.list [.list [.atom .null]]).writingError? 2 = some .tooDeep := by decide

end BraceLang
