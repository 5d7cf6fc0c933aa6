import BraceLang.Proofs.Machine.Programs

/-!
# Layouts

Two lists of tokens with the same lexemes have a layout each: the places of their tokens need not
have anything in common. A machine takes the same way over both. It comes to the same position with
the same value, and what it reports is the same but for the places, which are those of tokens at one
position of the two lists.
-/

namespace BraceLang

/-- The token at a position, or an end token behind the last one. -/
def tokenAt (tokens : List Token) (position : Nat) : Token :=
  (tokens[position]?).getD (.ending (Input.lastPlace tokens))

/-- Diagnostics in two layouts: they agree in kind and message, which names what is found at one
position of the two lists, and each is on the token at that position. -/
structure Diagnostic.Twins (left right : List Token) (one other : Diagnostic) : Prop where
  kind : one.kind = other.kind
  message : one.message = other.message
  position : ∃ position ≤ left.length,
    one.location = some (tokenAt left position).location ∧
      other.location = some (tokenAt right position).location ∧
      ∃ complaint : Complaint, one.message = complaint.message ∧
        complaint.found = (tokenAt left position).found

variable {left right : List Token}

/-- Complaints about the tokens at one position of two layouts are reported as diagnostics in these
layouts, whatever lines are known. -/
theorem Diagnostic.Twins.of_position {complaint : Complaint} {position : Nat}
    (hposition : position ≤ left.length)
    (hfound : complaint.found = (tokenAt left position).found)
    (lines others : Option (Array (List Char))) :
    (Diagnostic.make lines .unexpectedToken complaint.message
      (some (tokenAt left position).location)).Twins left right
        (Diagnostic.make others .unexpectedToken complaint.message
          (some (tokenAt right position).location)) := by
  have hmake (lines : Option (Array (List Char))) (place : Location) :
      let diagnostic := Diagnostic.make lines .unexpectedToken complaint.message (some place)
      diagnostic.kind = .unexpectedToken ∧ diagnostic.message = complaint.message ∧
        diagnostic.location = some place := by
    cases lines <;> exact ⟨rfl, rfl, rfl⟩
  obtain ⟨hkind, hmessage, hplace⟩ := hmake lines (tokenAt left position).location
  obtain ⟨hkinds, hmessages, hplaces⟩ := hmake others (tokenAt right position).location
  exact ⟨hkind.trans hkinds.symm, hmessage.trans hmessages.symm, position, hposition, hplace,
    hplaces, complaint, hmessage, hfound⟩

namespace Machine

/-- The token that is next behind so many others. -/
theorem current_drop (tokens : List Token) (limit : Option Nat) (position : Nat) :
    (Setting.over tokens limit).current (tokens.drop position) = tokenAt tokens position := by
  rw [Setting.current, tokenAt, List.headD_eq_head?_getD, List.head?_drop]
  rfl

/-- Machines over two layouts stand at one position, and what they report is on the tokens at one
position as well. -/
def Correspondence.ofLayouts (hlexemes : left.map Token.toLexeme = right.map Token.toLexeme)
    (limit : Option Nat) : Correspondence (.over left limit) (.over right limit) where
  Unread one other :=
    ∃ position ≤ left.length, one = left.drop position ∧ other = right.drop position
  Reported collector second :=
    List.Forall₂ (Diagnostic.Twins left right) collector.reported second.reported
  limit := rfl
  lexemes := by
    rintro one other ⟨position, -, rfl, rfl⟩
    rw [List.map_drop, List.map_drop, hlexemes]
  tail := by
    rintro one other ⟨position, hposition, rfl, rfl⟩ hinside
    have hbefore : position < left.length := by
      refine Nat.lt_of_le_of_ne hposition fun hlast => ?_
      rw [hlast, List.drop_length] at hinside
      cases hinside
    exact ⟨position + 1, hbefore, List.tail_drop, List.tail_drop⟩
  report := by
    rintro one other collector second complaint ⟨position, hposition, rfl, rfl⟩ hreported hfound
    rw [current_drop] at hfound ⊢
    rw [current_drop]
    exact List.rel_append hreported (.cons (.of_position hposition hfound _ _) .nil)

end Machine

open Machine

/-- Parsing does not depend on the layout. Two lists of tokens with the same lexemes both stop at
the same number, or give the same program, its error messages included, and diagnostics that differ
only in place: one by one they agree in kind and message and are on the tokens at one position of
the lists. It does not matter which sources are known. -/
theorem parseTokens_layout (options : Options) {left right : List Token}
    (hlexemes : left.map Token.toLexeme = right.map Token.toLexeme)
    (source other : Option String) :
    (∃ halt, parseTokens left source options = .error halt ∧
        parseTokens right other options = .error halt) ∨
      ∃ program diagnostics others,
        parseTokens left source options = .ok (program, diagnostics) ∧
          parseTokens right other options = .ok (program, others) ∧
          List.Forall₂ (Diagnostic.Twins left right) diagnostics others := by
  have hstart : (Correspondence.ofLayouts hlexemes none).Reported (.empty source) (.empty other) :=
    .nil
  rw [← readTokens_eq_parseTokens, ← readTokens_eq_parseTokens, readTokens, readTokens]
  obtain ⟨halt, hone, hother⟩ | ⟨program, behind, after, hone, hother, hreported⟩ :=
    readProgram_twins (.ofLayouts hlexemes none) ⟨0, Nat.zero_le _, rfl, rfl⟩ hstart options
  · rw [hone, hother]
    exact .inl ⟨halt, rfl, rfl⟩
  · rw [hone, hother]
    exact .inr ⟨program, _, _, rfl, rfl, hreported⟩

/-- A name without a semicolon on the first line of one file and further down in another. -/
theorem parseTokens_layout_name :
    let name (place : Location) : List Token := [⟨⟨.identifier, "x"⟩, place⟩]
    let left := name ⟨1, 1, "main"⟩
    let right := name ⟨7, 3, "other"⟩
    left.map Token.toLexeme = right.map Token.toLexeme ∧
      ((∃ halt, parseTokens left none {} = .error halt ∧
          parseTokens right (some "x") {} = .error halt) ∨
        ∃ program diagnostics others, parseTokens left none {} = .ok (program, diagnostics) ∧
          parseTokens right (some "x") {} = .ok (program, others) ∧
          List.Forall₂ (Diagnostic.Twins left right) diagnostics others) := by
  intro name left right
  have hlexemes : left.map Token.toLexeme = right.map Token.toLexeme := by decide
  exact ⟨hlexemes, parseTokens_layout {} hlexemes none (some "x")⟩

end BraceLang
