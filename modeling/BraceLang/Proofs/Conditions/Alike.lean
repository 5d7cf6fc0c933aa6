import BraceLang.Proofs.Outline.Sealed
import BraceLang.Proofs.Spelling.Brackets
import BraceLang.Proofs.Spelling.Programs

/-!
# One row in front of a semicolon and of a block

A condition is read where no struct literal may begin, and an empty block is behind it; the same
row is a statement where struct literals may begin, and a semicolon is behind it. Parsers for the
two are compared step by step. They agree as long as no name in front of a brace is outside all
groups, so this is kept along with the reply: what is passed is even in its brackets.
-/

namespace BraceLang

open BraceLang.Parser

/-- No identifier is directly followed by an opening brace outside all groups. -/
def BracesInside (row : List Lexeme) : Prop :=
  ∀ index < row.length, balance (row.take index) = 0 →
    row[index]?.any (·.kind == .identifier) = true →
      row[index + 1]?.any (·.isMarkOf ["\x7b"]) = false

/-- Whether it is so is found by looking at every place of the row. -/
instance (row : List Lexeme) : Decidable (BracesInside row) :=
  inferInstanceAs (Decidable (∀ index < row.length, _))

/-- What is behind an even row has no other braces than the whole. -/
theorem BracesInside.of_append {passed left : List Lexeme} (heven : balance passed = 0)
    (hinside : BracesInside (passed ++ left)) : BracesInside left := by
  intro index hindex hbalance hname
  have hwhole := hinside (passed.length + index) (by rw [List.length_append]; omega)
  rw [List.take_length_add_append, balance_append, heven, hbalance, Nat.add_assoc,
    List.getElem?_append_right (Nat.le_add_right _ _),
    List.getElem?_append_right (Nat.le_add_right _ _), Nat.add_sub_cancel_left,
    Nat.add_sub_cancel_left] at hwhole
  exact hwhole rfl hname

/-- What is behind a lexeme that is no bracket. -/
theorem BracesInside.tail {lexeme : Lexeme} {rest : List Lexeme} (hweight : lexeme.weight = 0)
    (hinside : BracesInside (lexeme :: rest)) : BracesInside rest := by
  have heven : balance [lexeme] = 0 := by rw [balance_cons, hweight, balance_nil, Int.add_zero]
  exact of_append heven hinside

/-- No brace is directly behind an identifier that a row begins with. -/
theorem BracesInside.not_brace {lexeme : Lexeme} {rest : List Lexeme}
    (hidentifier : lexeme.kind = .identifier) (hinside : BracesInside (lexeme :: rest)) :
    rest.head?.any (·.isMarkOf ["\x7b"]) = false := by
  have hfirst := hinside 0 (Nat.succ_pos _) rfl (by simp [hidentifier])
  rwa [List.getElem?_cons_succ, ← List.head?_eq_getElem?] at hfirst

/-- What a row may stand in front of: a semicolon, or the braces of an empty block. -/
structure Endings where
  semicolon : Lexeme
  opening : Lexeme
  closing : Lexeme
  isSemicolon : semicolon.isMarkOf [";"] = true
  isOpening : opening.isMarkOf ["\x7b"] = true
  isClosing : closing.isMarkOf ["\x7d"] = true

namespace Endings

variable (endings : Endings)

/-- An empty block. -/
def block : List Lexeme := [endings.opening, endings.closing]

/-- A mark that neither ends a statement nor opens a block is next only if the row goes on. -/
theorem head_any (row : List Lexeme) {marks : List String}
    (hmarks : ∀ mark ∈ marks, mark ∉ [";", "\x7b"]) :
    (row ++ [endings.semicolon]).head?.any (·.isMarkOf marks) = row.head?.any (·.isMarkOf marks) ∧
      (row ++ endings.block).head?.any (·.isMarkOf marks) = row.head?.any (·.isMarkOf marks) := by
  have hnot {lexeme : Lexeme} {text : String} (hlexeme : lexeme.isMarkOf [text] = true)
      (htext : text ∈ [";", "\x7b"]) : lexeme.isMarkOf marks = false :=
    Lexeme.isMarkOf_disjoint hlexeme fun mark hmark hmem =>
      hmarks mark hmem (List.mem_singleton.mp hmark ▸ htext)
  cases row with
  | nil =>
    exact ⟨hnot endings.isSemicolon (by decide), hnot endings.isOpening (by decide)⟩
  | cons lexeme rest => exact ⟨rfl, rfl⟩

end Endings

variable {α β σ : Type} {endings : Endings} {row : List Lexeme}

/-- Wherever one parser comes to a value in front of a semicolon, another one comes to it in front
of an empty block, and no brace is laid open. -/
def AlikeAt (endings : Endings) (row : List Lexeme) (first second : Parser α) : Prop :=
  ∀ ⦃left : List Lexeme⦄ ⦃value : α⦄,
    first (row ++ [endings.semicolon]) = .done value (left ++ [endings.semicolon]) [] →
    BracesInside left ∧ second (row ++ endings.block) = .done value (left ++ endings.block) []

/-- Two parsers are alike at every row whose braces are inside groups. -/
def Alike (endings : Endings) (first second : Parser α) : Prop :=
  ∀ ⦃row : List Lexeme⦄, BracesInside row → AlikeAt endings row first second

namespace AlikeAt

/-- A value that is read from nothing is the same on both sides. -/
theorem pure (hrow : BracesInside row) (value : α) :
    AlikeAt endings row (Pure.pure value) (Pure.pure value) := by
  intro left other hdone
  obtain ⟨rfl, hleft, -⟩ := Reply.done.inj hdone
  obtain rfl := List.append_cancel_right hleft
  exact ⟨hrow, rfl⟩

/-- What comes to no value without a report need not be compared. -/
theorem of_faulty {first second : Parser α}
    (hfaulty : (first (row ++ [endings.semicolon])).Faulty) :
    AlikeAt endings row first second :=
  fun _ _ hdone => absurd hdone (hfaulty _ _)

/-- What follows parsers that go alike may go alike behind them. -/
theorem bind {first second : Parser α} {next later : α → Parser β}
    (hruns : ∀ value, (next value).Runs) (hfirst : AlikeAt endings row first second)
    (hnext : ∀ value, Alike endings (next value) (later value)) :
    AlikeAt endings row (first >>= next) (second >>= later) := by
  intro left value hdone
  obtain ⟨inner, middle, hinner, hlast⟩ := exists_of_bind_eq_silent hdone
  obtain ⟨between, rfl, -⟩ := (hruns inner).exists_middle hlast
  obtain ⟨hbetween, hother⟩ := hfirst hinner
  rw [bind_of_silent _ hother]
  exact hnext inner hbetween hlast

/-- A question about the next lexeme that is not about how the row ends. -/
theorem nextIsMark {marks : List String} {next later : Bool → Parser β}
    (hmarks : ∀ mark ∈ marks, mark ∉ [";", "\x7b"])
    (hnext : AlikeAt endings row (next (row.head?.any (·.isMarkOf marks)))
      (later (row.head?.any (·.isMarkOf marks)))) :
    AlikeAt endings row (Parser.nextIsMark marks >>= next) (Parser.nextIsMark marks >>= later) := by
  obtain ⟨hsemicolon, hblock⟩ := endings.head_any row hmarks
  intro left value hdone
  rw [nextIsMark_bind, hsemicolon] at hdone
  rw [nextIsMark_bind, hblock]
  exact hnext hdone

/-- Passing a lexeme of the row. -/
theorem advance {lexeme : Lexeme} {rest : List Lexeme} {next later : Unit → Parser β}
    (hnext : AlikeAt endings rest (next ()) (later ())) :
    AlikeAt endings (lexeme :: rest) (Parser.advance >>= next) (Parser.advance >>= later) := by
  intro left value hdone
  rw [advance_bind] at hdone ⊢
  exact hnext hdone

/-- A mark that is passed if it is next. -/
theorem accept {marks : List String} {next later : Bool → Parser β} (hrow : BracesInside row)
    (hmarks : ∀ mark ∈ marks, mark ∉ ";" :: openers ++ closers)
    (hyes : Alike endings (next true) (later true))
    (hno : AlikeAt endings row (next false) (later false)) :
    AlikeAt endings row (Parser.accept marks >>= next) (Parser.accept marks >>= later) := by
  have hends : [";", "\x7b"] ⊆ ";" :: openers ++ closers := by decide
  obtain ⟨hsemicolon, hblock⟩ := endings.head_any row fun mark hmark hmem =>
    hmarks mark hmark (hends hmem)
  intro left value hdone
  rw [accept_bind, hsemicolon] at hdone
  rw [accept_bind, hblock]
  split at hdone
  · next hhead =>
    obtain ⟨lexeme, rest, rfl, hlexeme⟩ := exists_cons_of_head_any hhead
    rw [if_pos hhead]
    have hweight := Lexeme.weight_eq_zero hlexeme fun mark hmark hmem =>
      hmarks mark hmark (List.mem_cons_of_mem _ hmem)
    exact hyes (hrow.tail hweight) hdone
  · next hhead =>
    rw [if_neg hhead]
    exact hno hdone

/-- An identifier, which is in the row. -/
theorem identifier {expected : Expected} {next later : String → Parser β} (hrow : BracesInside row)
    (hnext : ∀ name, Alike endings (next name) (later name)) :
    AlikeAt endings row (Parser.identifier expected >>= next)
      (Parser.identifier expected >>= later) := by
  intro left value hdone
  obtain ⟨name, middle, hname, hlast⟩ := exists_of_bind_eq_silent hdone
  rw [identifier_apply] at hname
  cases row with
  | nil =>
    rcases Lexeme.kind_cases_of_isMarkOf endings.isSemicolon with hkind | hkind <;>
      simp [hkind] at hname
  | cons lexeme rest =>
    split at hname
    · next hkind =>
      obtain ⟨rfl, rfl, -⟩ := Reply.done.inj hname
      have hother : Parser.identifier expected (lexeme :: rest ++ endings.block) =
          .done lexeme.text (rest ++ endings.block) [] := by
        rw [identifier_apply]
        exact if_pos hkind
      rw [bind_of_silent _ hother]
      have hidentifier : lexeme.kind = .identifier := by simpa using hkind
      have hweight : lexeme.weight = 0 :=
        Lexeme.weight_of_not_isMark (by simp [Lexeme.isMark, hidentifier])
      exact hnext lexeme.text (hrow.tail hweight) hlast
    · cases hname

/-- What ends in a mark and passes an even row. -/
theorem of_sealed {parser : Parser α} (hsealed : parser.IsSealed) (hrow : BracesInside row)
    (heven : ∀ passed rest value, row ++ [endings.semicolon] = passed ++ rest →
      parser (row ++ [endings.semicolon]) = .done value rest [] → balance passed = 0) :
    AlikeAt endings row parser parser := by
  intro left value hdone
  obtain ⟨passed, rfl⟩ := hsealed.runs.left_suffix hdone
  have hbalance := heven passed (left ++ [endings.semicolon]) value (List.append_assoc ..) hdone
  exact ⟨hrow.of_append hbalance, (hsealed.ignores (by simp [Endings.block]) hdone).2⟩

end AlikeAt

/-- What accounts for even spellings has passed an even row. -/
theorem Reply.Accounts.even {reply : Reply α} {levels : Nat} {unread passed rest : List Lexeme}
    {outcome : Outcome α} {value : α} (haccount : reply.Accounts levels unread outcome)
    (hdone : reply = .done value rest []) (hsplit : unread = passed ++ rest)
    (houtcome : outcome value passed rest [] → balance passed = 0) : balance passed = 0 := by
  subst hdone
  obtain ⟨row, hrow, -, hvalue⟩ := haccount
  obtain rfl := List.append_cancel_right (hsplit.symm.trans hrow)
  exact houtcome hvalue

/-- Rounds that are alike. -/
theorem Alike.repeating {round other : σ → Parser (Turn σ)} (hruns : ∀ state, (round state).Runs)
    (hround : ∀ state, Alike endings (round state) (other state)) (state : σ) :
    Alike endings (Parser.repeating round state) (Parser.repeating other state) := by
  intro row hrow left last hdone
  refine repeatFor_induction (motive := fun rounds state unread reports =>
    ∀ row, unread = row ++ [endings.semicolon] → reports = [] → BracesInside row →
      ∀ more : List Lexeme, rounds.length ≤ more.length → BracesInside left ∧
        repeatFor other more state (row ++ endings.block) =
          .done last (left ++ endings.block) [])
    ?_ ?_ hdone row rfl rfl hrow (row ++ endings.block) (by simp [Endings.block])
  · rintro rounds state _ _ hfinish row rfl rfl hrow more -
    obtain ⟨hleft, hother⟩ := hround state hrow hfinish
    exact ⟨hleft, repeatFor_of_finish more hother⟩
  · rintro lexeme rounds state next _ middle earlier later hagain hrest ih row rfl hsilent hrow more
      hmore
    obtain ⟨rfl, rfl⟩ := List.append_eq_nil_iff.mp hsilent
    obtain ⟨passed, rfl⟩ := (Rounds.of_repeatFor hrest).suffix hruns
    rw [← List.append_assoc] at hagain ih
    obtain ⟨hbetween, hother⟩ := hround state hrow hagain
    obtain ⟨first, more, rfl⟩ := List.exists_cons_of_length_pos
      (Nat.lt_of_lt_of_le (Nat.succ_pos _) hmore)
    have hfewer := Nat.le_of_succ_le_succ hmore
    obtain ⟨hleft, hlast⟩ := ih (passed ++ left) rfl rfl hbetween more hfewer
    refine ⟨hleft, ?_⟩
    rw [repeatFor_of_again first more hother, hlast]
    rfl

end BraceLang
