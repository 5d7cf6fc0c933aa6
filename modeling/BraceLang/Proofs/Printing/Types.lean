import BraceLang.Parser.Program
import BraceLang.Proofs.Printing.Reading

/-!
# Reading printed types

A type is read inside any number of levels that suffices for it. Its arguments take one level and
leave the others for what stands inside them.
-/

namespace BraceLang

open Lexeme

/-- The arguments of a type open one level more than each of them. -/
theorem TypeExpr.argumentLevels_cons (first : TypeExpr) (rest : List TypeExpr) :
    argumentLevels (first :: rest) = maxLevels (first :: rest) + 1 := by
  rw [argumentLevels, maxLevels]

/-- Types are printed one by one. -/
theorem Printing.types_eq_map (types : List TypeExpr) : Printing.types types = types.map type := by
  induction types with
  | nil => rfl
  | cons first rest ih => rw [Printing.types, ih, List.map_cons]

/-- The arguments of a type are printed between angle brackets. -/
theorem Printing.typeArguments_cons (first : TypeExpr) (rest : List TypeExpr) :
    typeArguments (first :: rest) = enclosed "<" ">" (separated ((first :: rest).map type)) := by
  rw [typeArguments, types_eq_map, List.map_cons]

variable {options : Options} {levels : Nat}

/-- What is nested is parsed by the layer inside. -/
theorem nested_layerInside {α : Type} (parser : Layer → Parser α) :
    nested (layerInside options (levels + 1)) parser =
      parser (.around options (layerInside options levels)) := rfl

/-- Type arguments are read if each of them is read one level further in. -/
theorem typeArguments_reads {arguments : List TypeExpr} (tail : List Lexeme)
    (hne : arguments ≠ [])
    (harguments : ∀ argument ∈ arguments, (Parser.type (layerInside options levels)).Reads
      (Printing.type argument) argument (NotMark ["<"])) :
    Parser.typeArguments (layerInside options (levels + 1))
        (Printing.separated (arguments.map Printing.type) ++ mark ">" :: tail) =
      .done arguments tail [] := by
  obtain ⟨first, rest, rfl⟩ := List.exists_cons_of_ne_nil hne
  have hfirst := harguments first List.mem_cons_self
  have hrest (value : TypeExpr) (hvalue : value ∈ rest) :=
    harguments value (List.mem_cons_of_mem first hvalue)
  have hnot (text : String) (behind : List Lexeme) (htext : text ≠ "<") :
      NotMark ["<"] (mark text :: behind) := by simp [NotMark, htext]
  unfold Parser.typeArguments
  rw [nested_layerInside, Layer.around, Parser.bind_of_silent _ (Parser.separated_reads hfirst hrest
    (fun behind => hnot "," behind (by decide)) (hnot ">" tail (by decide)) (by decide)),
    Parser.expectMark_bind_mark]
  rfl

/-- A type is read from what it is printed as if its arguments are read one level further in. -/
private theorem typeForm_reads {name : String} {arguments : List TypeExpr}
    (hlevels : TypeExpr.argumentLevels arguments ≤ levels)
    (harguments : ∀ left, TypeExpr.maxLevels arguments ≤ left → ∀ argument ∈ arguments,
      (Parser.type (layerInside options left)).Reads (Printing.type argument) argument
        (NotMark ["<"])) :
    (Parser.type (layerInside options levels)).Reads (Printing.type (.mk name arguments))
      (.mk name arguments) (NotMark ["<"]) := by
  intro rest hrest
  rw [Printing.type, List.cons_append]
  unfold Parser.type
  rw [Parser.word_bind_identifier, Parser.accept_bind]
  cases arguments with
  | nil =>
    rw [Printing.typeArguments, List.nil_append, hrest]
    rfl
  | cons first others =>
    rw [TypeExpr.argumentLevels_cons] at hlevels
    obtain ⟨left, rfl⟩ : ∃ left, levels = left + 1 := ⟨levels - 1, by omega⟩
    have hread := typeArguments_reads rest (by simp) (harguments left (by omega))
    rw [Printing.typeArguments_cons, Printing.enclosed, List.cons_append, if_pos (by simp),
      List.tail_cons, List.append_assoc]
    simp only [if_true, List.singleton_append]
    rw [Parser.bind_of_silent _ hread]
    rfl

mutual

/-- A type is read from what it is printed as, unless an angle bracket follows. -/
theorem type_reads {levels : Nat} (type : TypeExpr) (hlevels : type.levels ≤ levels) :
    (Parser.type (layerInside options levels)).Reads (Printing.type type) type (NotMark ["<"]) :=
  match type with
  | .mk _ arguments => typeForm_reads (by rwa [TypeExpr.levels] at hlevels)
      fun _ hle => types_read arguments hle

/-- Each of some types is read from what it is printed as. -/
theorem types_read {levels : Nat} (types : List TypeExpr)
    (hlevels : TypeExpr.maxLevels types ≤ levels) : ∀ type ∈ types,
      (Parser.type (layerInside options levels)).Reads (Printing.type type) type (NotMark ["<"]) :=
  match types with
  | [] => nofun
  | first :: rest => by
    rw [TypeExpr.maxLevels, Nat.max_le] at hlevels
    exact List.forall_mem_cons.mpr ⟨type_reads first hlevels.1, types_read rest hlevels.2⟩

end

/-- Levels that suffice for the arguments of a type suffice for reading them behind their bracket.
-/
theorem typeArguments_reads_of_levels {arguments : List TypeExpr} (tail : List Lexeme)
    (hne : arguments ≠ []) (hlevels : TypeExpr.argumentLevels arguments ≤ levels) :
    Parser.typeArguments (layerInside options levels)
        (Printing.separated (arguments.map Printing.type) ++ mark ">" :: tail) =
      .done arguments tail [] := by
  obtain ⟨first, rest, rfl⟩ := List.exists_cons_of_ne_nil hne
  rw [TypeExpr.argumentLevels_cons] at hlevels
  obtain ⟨left, rfl⟩ : ∃ left, levels = left + 1 := ⟨levels - 1, by omega⟩
  exact typeArguments_reads tail hne (types_read (first :: rest) (by omega))

/-- A type behind a colon is read from what it is printed as, and so is none. -/
theorem statedType_reads (type : Option TypeExpr) (hlevels : TypeExpr.statedLevels type ≤ levels) :
    Parser.annotation (layerInside options levels)
      |>.Reads (Printing.stated ":" type) type (NotMark [":", "<"]) := by
  intro rest hrest
  unfold Parser.annotation
  rw [Parser.accept_bind]
  cases type with
  | none =>
    have hcolon : rest.head?.any (·.isMarkOf [":"]) = false := hrest.mono (by simp)
    rw [Printing.stated, List.nil_append, hcolon]
    rfl
  | some type =>
    rw [Printing.stated, List.cons_append, if_pos (by simp), List.tail_cons]
    simp only [if_true]
    rw [(type_reads type hlevels).run _ (hrest.mono (by simp))]
    rfl

/-- The return type of a function is read from what it is printed as; there may be none where it
need not be stated. -/
theorem returnType_reads {type : Option TypeExpr} {stated : Bool}
    (hstated : type.isSome = true ∨ stated = false)
      (hlevels : TypeExpr.statedLevels type ≤ levels) :
    (Parser.returnType (layerInside options levels) stated).Reads (Printing.stated "->" type) type
      (NotMark ["->", ":", "<"]) := by
  intro rest hrest
  unfold Parser.returnType
  rw [Parser.accept_bind]
  cases type with
  | none =>
    have harrow : rest.head?.any (·.isMarkOf ["->", ":"]) = false := hrest.mono (by simp)
    obtain rfl : stated = false := by simpa using hstated
    rw [Printing.stated, List.nil_append, harrow]
    rfl
  | some type =>
    rw [Printing.stated, List.cons_append, if_pos (by simp), List.tail_cons]
    simp only [if_true]
    rw [(type_reads type hlevels).run _ (hrest.mono (by simp))]
    rfl

end BraceLang
