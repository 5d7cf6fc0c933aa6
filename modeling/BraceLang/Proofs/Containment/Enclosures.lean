import BraceLang.Proofs.Containment.Innermost

/-!
# Expressions in more brackets than levels

A group, an array, a call and a struct literal open a level for the expression that stands in them.
Where more of them stand in one another than levels may be opened, the complaint is made at the
bracket that would open one level too many, and the group that begins there is passed as a whole.
The expressions around it fail with it, one after another, but none of them passes its own closing
mark. So all of these marks are unread behind the failure, the innermost one first.
-/

namespace BraceLang

open BraceLang.Parser

/-- What stands around an expression in brackets: the marks of a group or of an array, of a call of
a name, or of a struct literal with one field. -/
inductive Enclosure (α : Type) where
  | group (opening closing : α)
  | array (opening closing : α)
  | call (name opening closing : α)
  | literal (name opening field colon closing : α)

namespace Enclosure

variable {α β : Type}

/-- The name in front of the opening mark, if there is one. -/
def front : Enclosure α → List α
  | group .. | array .. => []
  | call name .. | literal name .. => [name]

/-- The mark that opens the group. -/
def opening : Enclosure α → α
  | group opening _ | array opening _ | call _ opening _ | literal _ opening .. => opening

/-- The name of the field with its colon, if there is one. -/
def field : Enclosure α → List α
  | literal _ _ field colon _ => [field, colon]
  | _ => []

/-- The mark that closes the group. -/
def closing : Enclosure α → α
  | group _ closing | array _ closing | call _ _ closing | literal _ _ _ _ closing => closing

/-- A row in an enclosure. -/
def around (enclosure : Enclosure α) (row : List α) : List α :=
  enclosure.front ++ enclosure.opening :: (enclosure.field ++ (row ++ [enclosure.closing]))

/-- A row in several enclosures, the first of which is the outermost. -/
def enclose (enclosures : List (Enclosure α)) (row : List α) : List α :=
  enclosures.foldr around row

/-- What stands in front of what several enclosures enclose. -/
def beginnings (enclosures : List (Enclosure α)) : List α :=
  enclosures.flatMap fun enclosure => enclosure.front ++ enclosure.opening :: enclosure.field

/-- The closing marks of several enclosures, as they stand behind what is enclosed. -/
def closings (enclosures : List (Enclosure α)) : List α :=
  (enclosures.map closing).reverse

/-- The same enclosure of other things. -/
def map (function : α → β) : Enclosure α → Enclosure β
  | group opening closing => .group (function opening) (function closing)
  | array opening closing => .array (function opening) (function closing)
  | call name opening closing => .call (function name) (function opening) (function closing)
  | literal name opening field colon closing => .literal (function name) (function opening)
      (function field) (function colon) (function closing)

/-- The opening mark is mapped with its enclosure. -/
@[simp] theorem opening_map (function : α → β) (enclosure : Enclosure α) :
    (enclosure.map function).opening = function enclosure.opening := by
  cases enclosure <;> rfl

/-- So is the closing mark. -/
@[simp] theorem closing_map (function : α → β) (enclosure : Enclosure α) :
    (enclosure.map function).closing = function enclosure.closing := by
  cases enclosure <;> rfl

/-- So is the beginning of a field. -/
@[simp] theorem field_map (function : α → β) (enclosure : Enclosure α) :
    (enclosure.map function).field = enclosure.field.map function := by
  cases enclosure <;> rfl

/-- A row is mapped with what is around it. -/
theorem map_around (function : α → β) (enclosure : Enclosure α) (row : List α) :
    (enclosure.around row).map function = (enclosure.map function).around (row.map function) := by
  cases enclosure <;> simp [around, front, opening, field, closing, map]

/-- The same for enclosures in one another. -/
theorem map_enclose (function : α → β) (enclosures : List (Enclosure α)) (row : List α) :
    (enclose enclosures row).map function =
      enclose (enclosures.map (Enclosure.map function)) (row.map function) := by
  induction enclosures with
  | nil => rfl
  | cons enclosure enclosures ih => exact (map_around ..).trans (congrArg _ ih)

/-- The closing marks of enclosures are mapped with them. -/
theorem map_closings (function : α → β) (enclosures : List (Enclosure α)) :
    (closings enclosures).map function =
      closings (enclosures.map (Enclosure.map function)) := by
  simp [closings, Function.comp_def]

/-- What stands behind an enclosure. -/
theorem around_append (enclosure : Enclosure α) (row rest : List α) :
    enclosure.around row ++ rest = enclosure.front ++
      enclosure.opening :: (enclosure.field ++ (row ++ enclosure.closing :: rest)) := by
  simp [around]

/-- The closing mark of the outermost enclosure is the last one. -/
theorem closings_cons_append (enclosure : Enclosure α) (enclosures : List (Enclosure α))
    (rest : List α) :
    closings (enclosure :: enclosures) ++ rest =
      closings enclosures ++ enclosure.closing :: rest := by
  simp [closings]

/-- Enclosures in others. -/
theorem enclose_append_cons (outer inner : List (Enclosure α)) (deep : Enclosure α)
    (row : List α) :
    enclose (outer ++ deep :: inner) row = enclose outer (deep.around (enclose inner row)) :=
  List.foldr_append

/-- There is one closing mark for each enclosure. -/
@[simp] theorem length_closings (enclosures : List (Enclosure α)) :
    (closings enclosures).length = enclosures.length := by simp [closings]

/-- Enclosures are closed behind what is enclosed, the innermost one first. -/
theorem enclose_append (enclosures : List (Enclosure α)) (row rest : List α) :
    enclose enclosures row ++ rest =
      beginnings enclosures ++ (row ++ (closings enclosures ++ rest)) := by
  induction enclosures generalizing rest with
  | nil => rfl
  | cons enclosure enclosures ih =>
    have hinner := ih (enclosure.closing :: rest)
    rw [← closings_cons_append] at hinner
    change enclosure.around (enclose enclosures row) ++ rest = _
    rw [around_append, hinner]
    simp [beginnings]

/-- What stands in front of the opening mark of an enclosure in others, and what stands behind. -/
theorem enclose_opening (outer inner : List (Enclosure α)) (deep : Enclosure α)
    (row rest : List α) :
    enclose (outer ++ deep :: inner) row ++ rest = beginnings outer ++ deep.front ++
      deep.opening :: (deep.field ++ (enclose inner row ++
        deep.closing :: (closings outer ++ rest))) := by
  rw [enclose_append_cons, enclose_append, around_append, List.append_assoc]

end Enclosure

/-- A lexeme that is read as a name. -/
def Lexeme.IsPlainName (lexeme : Lexeme) : Prop :=
  lexeme.kind = .identifier ∧ isPlainName lexeme.text = true

/-- An enclosure has the marks of its form. What is called is a name, and so is a struct; a field is
named by an identifier. -/
inductive Enclosure.IsFormed : Enclosure Lexeme → Prop
  | group {opening closing : Lexeme} : opening.isMarkOf ["("] = true →
    closing.isMarkOf [")"] = true → IsFormed (.group opening closing)
  | array {opening closing : Lexeme} : opening.isMarkOf ["["] = true →
    closing.isMarkOf ["]"] = true → IsFormed (.array opening closing)
  | call {name opening closing : Lexeme} : name.IsPlainName → opening.isMarkOf ["("] = true →
    closing.isMarkOf [")"] = true → IsFormed (.call name opening closing)
  | literal {name opening field colon closing : Lexeme} : name.IsPlainName →
    opening.isMarkOf ["\x7b"] = true → field.kind = .identifier → colon.isMarkOf [":"] = true →
    closing.isMarkOf ["\x7d"] = true → IsFormed (.literal name opening field colon closing)

section Groups

namespace Enclosure.IsFormed

variable {enclosure : Enclosure Lexeme} (hformed : enclosure.IsFormed)
include hformed

/-- An enclosure begins with an opening mark. -/
theorem opening_isMarkOf : enclosure.opening.isMarkOf openers = true := by
  cases hformed with
  | group hopening | array hopening | call _ hopening | literal _ hopening =>
    exact Lexeme.isMarkOf_subset hopening (by decide)

/-- It ends with a closing one. -/
theorem closing_isMarkOf : enclosure.closing.isMarkOf closers = true := by
  cases hformed with
  | group _ hclosing | array _ hclosing | call _ _ hclosing | literal _ _ _ _ hclosing =>
    exact Lexeme.isMarkOf_subset hclosing (by decide)

/-- No enclosure begins with a closing mark. -/
theorem begins (row : List Lexeme) : Begins closers (enclosure.around row) := by
  cases hformed with
  | group hopening | array hopening =>
    exact ⟨_, _, rfl, Lexeme.isMarkOf_disjoint hopening (by decide)⟩
  | call hname | literal hname =>
    refine ⟨_, _, rfl, Lexeme.isMarkOf_of_isWord ?_⟩
    simp [Lexeme.isWord, hname.1]

/-- No lexeme of an enclosure ends an input. -/
theorem kind_ne {row : List Lexeme} (hrow : ∀ lexeme ∈ row, lexeme.kind ≠ .endOfInput) :
    ∀ lexeme ∈ enclosure.around row, lexeme.kind ≠ .endOfInput := by
  have hfront : ∀ lexeme ∈ enclosure.front ++ enclosure.field, lexeme.kind ≠ .endOfInput := by
    cases hformed with
    | group | array => exact fun _ hmem => nomatch hmem
    | call hname => simp [front, field, hname.1]
    | literal hname _ hfield hcolon =>
      simpa [front, field, hname.1, hfield] using Lexeme.kind_of_isMarkOf hcolon
  obtain ⟨hname, hfield⟩ := List.forall_mem_append.mp hfront
  have hopening := Lexeme.kind_of_isMarkOf hformed.opening_isMarkOf
  have hclosing := Lexeme.kind_of_isMarkOf hformed.closing_isMarkOf
  refine List.forall_mem_append.mpr ⟨hname, List.forall_mem_cons.mpr ⟨hopening, ?_⟩⟩
  refine List.forall_mem_append.mpr ⟨hfield, List.forall_mem_append.mpr ⟨hrow, ?_⟩⟩
  exact List.forall_mem_singleton.mpr hclosing

/-- The beginning of a field is balanced. -/
theorem field_balanced : Balanced enclosure.field := by
  cases hformed with
  | group | array | call => exact .of_weightless fun _ hmem => nomatch hmem
  | literal _ _ hfield hcolon =>
    refine .of_weightless (List.forall_mem_cons.mpr ⟨?_, List.forall_mem_singleton.mpr ?_⟩)
    · exact Lexeme.weight_of_not_isMark (by simp [Lexeme.isMark, hfield])
    · exact Lexeme.weight_eq_zero hcolon (by decide)

/-- So is what is in front of the opening mark. -/
theorem front_balanced : Balanced enclosure.front := by
  cases hformed with
  | group | array => exact .of_weightless fun _ hmem => nomatch hmem
  | call hname | literal hname =>
    refine .of_weightless (List.forall_mem_singleton.mpr (Lexeme.weight_of_not_isMark ?_))
    simp [Lexeme.isMark, hname.1]

/-- An enclosure is even if what is in it is. -/
theorem balanced {row : List Lexeme} (hrow : Balanced row) : Balanced (enclosure.around row) := by
  have hgroup := Balanced.group hformed.opening_isMarkOf hformed.closing_isMarkOf
    (hformed.field_balanced.append hrow)
  rw [List.append_assoc] at hgroup
  exact hformed.front_balanced.append hgroup

end Enclosure.IsFormed

namespace Enclosure

variable {enclosures : List (Enclosure Lexeme)} {row : List Lexeme}
  (hformed : ∀ enclosure ∈ enclosures, enclosure.IsFormed)
include hformed

/-- A balanced row stays balanced in enclosures. -/
theorem enclose_balanced (hrow : Balanced row) : Balanced (enclose enclosures row) := by
  induction enclosures with
  | nil => exact hrow
  | cons enclosure enclosures ih =>
    obtain ⟨hfirst, hothers⟩ := List.forall_mem_cons.mp hformed
    exact hfirst.balanced (ih hothers)

/-- No end of an input comes with enclosures. -/
theorem enclose_kind_ne (hrow : ∀ lexeme ∈ row, lexeme.kind ≠ .endOfInput) :
    ∀ lexeme ∈ enclose enclosures row, lexeme.kind ≠ .endOfInput := by
  induction enclosures with
  | nil => exact hrow
  | cons enclosure enclosures ih =>
    obtain ⟨hfirst, hothers⟩ := List.forall_mem_cons.mp hformed
    exact hfirst.kind_ne (ih hothers)

/-- What closes enclosures are closing marks. -/
theorem closings_isMarkOf : ∀ closing ∈ closings enclosures, closing.isMarkOf closers = true := by
  intro closing hmem
  obtain ⟨enclosure, henclosure, rfl⟩ := List.mem_map.mp (List.mem_reverse.mp hmem)
  exact (hformed enclosure henclosure).closing_isMarkOf

/-- Around a row that begins with no closing mark neither do enclosures. -/
theorem enclose_begins (hrow : Begins closers row) : Begins closers (enclose enclosures row) := by
  cases enclosures with
  | nil => exact hrow
  | cons enclosure enclosures => exact (hformed enclosure List.mem_cons_self).begins _

end Enclosure

end Groups

section Failures

variable {α β : Type} {inside : Option Layer} {literals : Bool} {unread rest : List Lexeme}
  {report : Report} {reports : List Report}

/-- An expression fails where its first primary expression does. -/
theorem Parser.expression_of_failed
    (hprimary : primary inside literals unread = .failed report rest reports) :
    expression inside literals unread = .failed report rest reports := by
  have hbinary (count : Nat) :
      binary (operand inside literals) count unread = .failed report rest reports := by
    induction count with
    | zero => exact bind_of_failed _ hprimary
    | succ count ih => exact bind_of_failed _ ih
  exact hbinary 7

/-- A list fails where its first item does. -/
theorem Parser.listed_of_failed {item : Parser α} {closing : String}
    (hnot : NotMark [closing] unread) (hitem : item unread = .failed report rest reports) :
    listed item closing unread = .failed report rest reports := by
  unfold listed
  rw [nextIsMark_bind, hnot, if_neg (by simp)]
  exact bind_of_failed _ hitem

/-- The fields of a struct literal fail where the value of the first one does. -/
theorem Parser.fields_of_failed {layer : Layer} {struct : String} {field colon : Lexeme}
    (hfield : field.kind = .identifier) (hcolon : colon.isMarkOf [":"] = true)
    (hvalue : layer.expression true unread = .failed report rest reports) :
    upTo (literalField layer struct) [","] "\x7d" (field :: colon :: unread) =
      .failed report rest reports := by
  have hitem : literalField layer struct [] (field :: colon :: unread) =
      .failed report rest reports := by
    rw [literalField_isIdentifier hfield, List.any_nil, if_neg (by simp), List.head?_cons,
      Option.any_some, if_pos hcolon]
    exact bind_of_failed _ hvalue
  have hround : nextUpTo (literalField layer struct) [","] "\x7d" [] (field :: colon :: unread) =
      .failed report rest reports :=
    (nextUpTo_isIdentifier hfield (colon :: unread)).trans (bind_of_failed _ hitem)
  exact bind_of_failed _ (repeatFor_of_failed _ hround)

/-- A name is read with what stands behind it. -/
theorem Parser.primary_isPlainName {name : Lexeme} (hname : name.IsPlainName)
    (rest : List Lexeme) :
    primary inside literals (name :: rest) = named inside literals name.text rest := by
  obtain ⟨kind, text⟩ := name
  obtain ⟨rfl, hplain⟩ := hname
  exact primary_identifier hplain rest

/-- Reads an expression in an enclosure from the opening mark on. -/
def Enclosure.parser (inside : Option Layer) : Enclosure Lexeme → Parser Expression
  | .group .. => Parser.group inside
  | .array .. => Parser.array inside
  | .call name .. => do
    let arguments ← arguments inside
    return .call ⟨name.text, []⟩ arguments
  | .literal name .. => structLiteral inside name.text

/-- Where no more levels may be opened, that is a complaint, and the group is passed. -/
theorem Enclosure.parser_none (enclosure : Enclosure Lexeme) (unread : List Lexeme) :
    enclosure.parser none unread =
      .failed ⟨unread.length, .nestingTooDeep unread.head?⟩ (behindGroup unread) [] := by
  cases enclosure with
  | group | array | literal => rfl
  | call name => exact bind_of_failed _ rfl

namespace Enclosure.IsFormed

variable {enclosure : Enclosure Lexeme} (hformed : enclosure.IsFormed)
include hformed

/-- What does not begin with a closing mark is read as what the enclosure of it tells. -/
theorem primary_eq (hunread : NotMark closers unread) :
    primary inside true (enclosure.front ++ enclosure.opening :: (enclosure.field ++ unread)) =
      enclosure.parser inside (enclosure.opening :: (enclosure.field ++ unread)) := by
  cases hformed with
  | @group opening closing hopening =>
    have hnot : NotMark [")"] unread := hunread.mono (by decide)
    exact primary_group hopening hnot
  | @array opening closing hopening =>
    obtain ⟨hmark, htext⟩ := Lexeme.of_isMarkOf_singleton hopening
    refine (primary_isMark hmark unread).trans ?_
    rw [htext, marked, if_neg (by decide), if_pos rfl]
    rfl
  | @call name opening closing hname hopening =>
    have hbrace : opening.isMarkOf ["\x7b"] = false :=
      Lexeme.isMarkOf_disjoint hopening (by decide)
    have hangle : opening.isMarkOf ["<"] = false := Lexeme.isMarkOf_disjoint hopening (by decide)
    refine (primary_isPlainName hname (opening :: unread)).trans ?_
    rw [named, nextIsMark_bind, List.head?_cons, Option.any_some, hbrace, Bool.and_false,
      if_neg (by simp), nextAreTypeArguments_bind, List.head?_cons, Option.any_some, hangle,
      Bool.false_and, Bool.false_and, if_neg (by simp), called, nextIsMark_bind, List.head?_cons,
      Option.any_some, if_pos hopening]
    rfl
  | @literal name opening field colon closing hname hopening =>
    refine (primary_isPlainName hname (opening :: field :: colon :: unread)).trans ?_
    rw [named, nextIsMark_bind, List.head?_cons, Option.any_some, hopening, Bool.and_true,
      if_pos rfl]
    rfl

/-- An expression in an enclosure fails where the enclosed expression does. -/
theorem parser_of_failed {layer : Layer} (hunread : NotMark closers unread)
    (hfails : layer.expression true unread = .failed report rest reports) :
    enclosure.parser (some layer) (enclosure.opening :: (enclosure.field ++ unread)) =
      .failed report rest reports := by
  cases hformed with
  | group => exact (advance_bind _ _).trans (bind_of_failed _ hfails)
  | array =>
    have hnot : NotMark ["]"] unread := hunread.mono (by decide)
    exact (advance_bind _ _).trans (bind_of_failed _ (listed_of_failed hnot hfails))
  | @call name opening closing =>
    have hnot : NotMark [")"] unread := hunread.mono (by decide)
    have harguments : arguments (some layer) (opening :: unread) = .failed report rest reports :=
      (advance_bind _ _).trans (bind_of_failed _ (listed_of_failed hnot hfails))
    exact bind_of_failed _ harguments
  | literal _ _ hfield hcolon =>
    exact (advance_bind _ _).trans (bind_of_failed _ (fields_of_failed hfield hcolon hfails))

variable {row : List Lexeme} (hbegins : Begins closers row)
include hbegins

/-- Where no more levels may be opened, an expression in an enclosure fails at the opening mark, and
the group is passed. -/
theorem primary_tooDeep (hrow : Balanced row) (rest : List Lexeme) :
    primary none true (enclosure.around row ++ rest) =
      .failed ⟨(enclosure.opening :: (enclosure.field ++
          (row ++ enclosure.closing :: rest))).length,
        .nestingTooDeep (some enclosure.opening)⟩ rest [] := by
  have hgroup := behindGroup_of_balanced hformed.opening_isMarkOf hformed.closing_isMarkOf
    (hformed.field_balanced.append hrow) rest
  rw [List.append_assoc] at hgroup
  rw [Enclosure.around_append, hformed.primary_eq (hbegins.notMark _), Enclosure.parser_none,
    hgroup]
  rfl

/-- Where the enclosed expression fails, the closing mark is not passed. -/
theorem primary_of_failed {options : Options}
    (hfails : expression inside true (row ++ enclosure.closing :: rest) =
      .failed report unread reports) :
    primary (some (Layer.around options inside)) true (enclosure.around row ++ rest) =
      .failed report unread reports := by
  have hnot := hbegins.notMark (enclosure.closing :: rest)
  rw [Enclosure.around_append, hformed.primary_eq hnot]
  exact hformed.parser_of_failed hnot hfails

end Enclosure.IsFormed

/-- Where an expression stands in one enclosure more than levels may be opened, it fails at the mark
that opens the innermost of them. The closing marks of the others are unread. -/
theorem Parser.expression_tooDeep (options : Options) {outer : List (Enclosure Lexeme)}
    {deep : Enclosure Lexeme} {row : List Lexeme}
    (houter : ∀ enclosure ∈ outer, enclosure.IsFormed) (hdeep : deep.IsFormed)
    (hrow : Balanced row) (hbegins : Begins closers row) (rest : List Lexeme) :
    expression (layerInside options outer.length) true
        (Enclosure.enclose outer (deep.around row) ++ rest) =
      .failed ⟨(deep.opening :: (deep.field ++ (row ++ deep.closing ::
          (Enclosure.closings outer ++ rest)))).length,
        .nestingTooDeep (some deep.opening)⟩ (Enclosure.closings outer ++ rest) [] := by
  induction outer generalizing rest with
  | nil => exact expression_of_failed (hdeep.primary_tooDeep hbegins hrow rest)
  | cons enclosure outer ih =>
    obtain ⟨hfirst, hothers⟩ := List.forall_mem_cons.mp houter
    have hinner := ih hothers (enclosure.closing :: rest)
    rw [Enclosure.closings_cons_append]
    have hrest := Enclosure.enclose_begins hothers (hdeep.begins row)
    exact expression_of_failed (hfirst.primary_of_failed hrest hinner)

end Failures

end BraceLang
