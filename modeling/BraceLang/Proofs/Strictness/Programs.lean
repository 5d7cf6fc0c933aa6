import BraceLang.Proofs.Strictness.Statements

/-!
# Stricter options only filter

Options say which declarations have to state a return type. A program that is free of reports under
strict options is one that is free of them under lax options and in whose tree no return type is
missing that the strict options ask for; the tree is the same. The schema of the trees is where this
is read off: the schemas of two options differ in the return types of functions and methods alone.
-/

namespace BraceLang

open BraceLang.Parser BraceLang.Tree

/-- Whether a declaration with a tag has to state a return type. -/
def Options.askReturnType (options : Options) : Tag → Bool
  | .function => options.functionsStateReturn
  | .method => options.methodsStateReturn
  | _ => false

/-- Whether a node holds nothing for a return type. -/
def Tree.Node.leavesReturnTypeOut (node : Node) : Bool :=
  match node.value with
  | .record fields =>
    fields.any fun (key, value) => key == .text "return_type" && Shape.nothing value
  | _ => false

section Schemas

open BraceLang.Tree.Shape

variable {lax strict options : Options}

/-- A record with a shape begins with the field that is expected first. -/
theorem Tree.Shape.record_cons_iff {name : String} {shape : Shape}
    {expected : List (String × Shape)} {value : Value} :
    record ((name, shape) :: expected) value = true ↔
      ∃ first rest, value = .record ((.text name, first) :: rest) ∧ shape first = true ∧
        record expected (.record rest) = true := by
  constructor
  · intro hrecord
    unfold record at hrecord
    split at hrecord
    · next given =>
      rcases given with _ | ⟨⟨key, first⟩, rest⟩
      · cases hrecord
      · simp only [fields, Bool.and_eq_true, beq_iff_eq] at hrecord
        obtain ⟨⟨rfl, hfirst⟩, hrest⟩ := hrecord
        exact ⟨first, rest, rfl, hfirst, hrest⟩
    · cases hrecord
  · rintro ⟨first, rest, rfl, hfirst, hrest⟩
    simpa [record, fields, hfirst] using hrest

/-- A record that is expected to have no more fields has none. -/
theorem Tree.Shape.record_nil_iff {given : List (Atom × Value)} :
    record [] (.record given) = true ↔ given = [] := by
  cases given <;> simp [record, fields]

/-- Nothing is no type. -/
theorem Tree.Shape.type_eq (value : Value) :
    Shape.type value = (optional Shape.type value && !nothing value) := by
  unfold optional either nothing
  split
  · rfl
  · simp

/-- What a function or a method holds. -/
theorem Tree.Shape.callable_eq_true_iff {stated : Bool} {value : Value} :
    callable stated value = true ↔ ∃ name parameters type body,
      value = .named [("name", name), ("parameters", parameters), ("return_type", type),
        ("body", body)] ∧
      (anyText name = true ∧ list (node [.parameter]) parameters = true ∧ block body = true) ∧
      (if stated then Shape.type else optional Shape.type) type = true := by
  simp only [callable, record_cons_iff, record_nil_iff]
  constructor
  · rintro ⟨name, _, rfl, hname, parameters, _, ⟨⟩, hparameters, type, _, ⟨⟩, htype, body, _, ⟨⟩,
      hbody, rfl⟩
    exact ⟨name, parameters, type, body, rfl, ⟨hname, hparameters, hbody⟩, htype⟩
  · rintro ⟨name, parameters, type, body, rfl, ⟨hname, hparameters, hbody⟩, htype⟩
    exact ⟨name, _, rfl, hname, parameters, _, rfl, hparameters, type, _, rfl, htype, body, _, rfl,
      hbody, rfl⟩

/-- The return type of a function or a method is what is found in it. -/
theorem Tree.Node.leavesReturnTypeOut_named (tag : Tag) (name parameters type body : Value) :
    leavesReturnTypeOut ⟨tag, .named [("name", name), ("parameters", parameters),
      ("return_type", type), ("body", body)]⟩ = nothing type := by
  have hname : (Atom.text "name" == Atom.text "return_type") = false := by decide
  have hparameters : (Atom.text "parameters" == Atom.text "return_type") = false := by decide
  have hbody : (Atom.text "body" == Atom.text "return_type") = false := by decide
  simp [leavesReturnTypeOut, Value.named, hname, hparameters, hbody]

/-- What states its return type might leave it out, and does not. -/
theorem Tree.Shape.callable_iff (stated : Bool) (tag : Tag) {value : Value} :
    callable stated value = true ↔ callable false value = true ∧
      (stated = true → Node.leavesReturnTypeOut ⟨tag, value⟩ = false) := by
  cases stated with
  | false => simp
  | true =>
    rw [callable_eq_true_iff, callable_eq_true_iff]
    constructor
    · rintro ⟨name, parameters, type, body, rfl, hparts, htype⟩
      rw [if_pos rfl, type_eq, Bool.and_eq_true, Bool.not_eq_true'] at htype
      rw [Node.leavesReturnTypeOut_named]
      exact ⟨⟨name, parameters, type, body, rfl, hparts, htype.1⟩, fun _ => htype.2⟩
    · rintro ⟨⟨name, parameters, type, body, rfl, hparts, htype⟩, hleaves⟩
      have hsome := hleaves rfl
      rw [Node.leavesReturnTypeOut_named] at hsome
      refine ⟨name, parameters, type, body, rfl, hparts, ?_⟩
      rw [if_pos rfl, type_eq, Bool.and_eq_true, Bool.not_eq_true']
      exact ⟨htype, hsome⟩

/-- The schemas of two options, of which one asks for every return type that the other asks for,
differ in the return types that are left out. -/
theorem Tree.Node.fits_iff
    (hask : ∀ tag, lax.askReturnType tag = true → strict.askReturnType tag = true) (node : Node) :
    node.fits strict = true ↔ node.fits lax = true ∧
      (strict.askReturnType node.tag = true → node.leavesReturnTypeOut = false) := by
  have hcallable (htag : ∀ options : Options,
      ofTag options node.tag = callable (options.askReturnType node.tag)) :
      node.fits strict = true ↔ node.fits lax = true ∧
        (strict.askReturnType node.tag = true → node.leavesReturnTypeOut = false) := by
    rw [Node.fits, Node.fits, htag, htag, callable_iff (strict.askReturnType node.tag) node.tag,
      callable_iff (lax.askReturnType node.tag) node.tag]
    exact ⟨fun ⟨hshape, hstrict⟩ => ⟨⟨hshape, fun hlax => hstrict (hask _ hlax)⟩, hstrict⟩,
      fun ⟨⟨hshape, _⟩, hstrict⟩ => ⟨hshape, hstrict⟩⟩
  obtain ⟨tag, value⟩ := node
  cases tag with
  | function | method => exact hcallable fun _ => rfl
  | _ => simp [Node.fits, ofTag, Options.askReturnType]

end Schemas

section Programs

variable {source target options : Options} {tokens : List Token} {text : Option String}
  {program : List Statement}

/-- Every node of the tree of what is parsed fits the schema. -/
theorem fits_of_parseTokens {diagnostics : List Diagnostic}
    (hparsed : parseTokens tokens text options = .ok (program, diagnostics)) :
    ∀ node ∈ (Statement.blockToNode program).walk, node.fits options = true := by
  obtain ⟨reports, hreply, -⟩ := parseTokens_eq_ok hparsed
  have hbuilt := program_yields_built options (Input.ofTokens tokens).lexemes
  rw [hreply] at hbuilt
  exact Node.block_fits hbuilt.fits

/-- A program without a diagnostic is the same under other options if its tree fits their schema. -/
theorem parseTokens_of_fits (hparsed : parseTokens tokens text source = .ok (program, []))
    (hfits : ∀ node ∈ (Statement.blockToNode program).walk, node.fits target = true) :
    parseTokens tokens text target = .ok (program, []) := by
  have hother := program_transfers source target _ program [] (program_of_parseTokens hparsed)
    (Statement.fits_of_block hfits)
  exact parseTokens_of_done text hother

/-- Stricter options only filter. A program is free of diagnostics under strict options exactly if
it is the same program, and free of them, under lax options, and in its tree no function and no
method leaves a return type out that the strict options ask for. -/
theorem parseTokens_stricter_iff (lax strict : Options)
    (hfunctions : lax.functionsStateReturn = true → strict.functionsStateReturn = true)
    (hmethods : lax.methodsStateReturn = true → strict.methodsStateReturn = true)
    (tokens : List Token) (text : Option String) (program : List Statement) :
    parseTokens tokens text strict = .ok (program, []) ↔
      parseTokens tokens text lax = .ok (program, []) ∧
        ∀ node ∈ (Statement.blockToNode program).walk,
          strict.askReturnType node.tag = true → node.leavesReturnTypeOut = false := by
  have hask (tag : Tag) : lax.askReturnType tag = true → strict.askReturnType tag = true := by
    cases tag with
    | function => exact hfunctions
    | method => exact hmethods
    | _ => exact id
  constructor
  · intro hstrict
    have hfits := fits_of_parseTokens hstrict
    refine ⟨parseTokens_of_fits hstrict fun node hnode => ?_, fun node hnode => ?_⟩
    · exact ((Node.fits_iff hask node).mp (hfits node hnode)).1
    · exact ((Node.fits_iff hask node).mp (hfits node hnode)).2
  · rintro ⟨hlax, hstated⟩
    refine parseTokens_of_fits hlax fun node hnode => ?_
    exact (Node.fits_iff hask node).mpr ⟨fits_of_parseTokens hlax node hnode, hstated node hnode⟩

/-- A method in a block that leaves its return type out is read without a diagnostic where it may,
and under stricter options it is not. -/
theorem parseTokens_stricter_method :
    let tokens := [⟨.keyword, "impl"⟩, ⟨.identifier, "A"⟩, ⟨.symbol, "\x7b"⟩, ⟨.identifier, "m"⟩,
      ⟨.symbol, "("⟩, ⟨.symbol, ")"⟩, ⟨.symbol, "\x7b"⟩, ⟨.keyword, "fn"⟩, ⟨.identifier, "f"⟩,
      ⟨.symbol, "("⟩, ⟨.symbol, ")"⟩, ⟨.operator, "->"⟩, ⟨.identifier, "int"⟩, ⟨.symbol, "\x7b"⟩,
      ⟨.symbol, "\x7d"⟩, ⟨.symbol, "\x7d"⟩, ⟨.symbol, "\x7d"⟩].map
        fun lexeme => Token.mk lexeme (.start "main")
    let program := [.impl "A" [.mk "m" [] none [.function (.mk "f" [] (some (.mk "int" [])) [])]]]
    parseTokens tokens none ⟨false, false⟩ = .ok (program, []) ∧
      parseTokens tokens none ⟨true, false⟩ = .ok (program, []) ∧
      parseTokens tokens none ⟨true, true⟩ ≠ .ok (program, []) := by
  intro tokens program
  have hreply : Parser.program ⟨false, false⟩ (tokens.map Token.toLexeme) =
      .done program [] [] := rfl
  have hlax : parseTokens tokens none ⟨false, false⟩ = .ok (program, []) :=
    (parseTokens_of_done none hreply).trans rfl
  have hstated : ∀ node ∈ (Statement.blockToNode program).walk,
      (Options.askReturnType ⟨true, false⟩ node.tag = true → node.leavesReturnTypeOut = false) := by
    decide
  have hmethod : ¬ ∀ node ∈ (Statement.blockToNode program).walk,
      (Options.askReturnType ⟨true, true⟩ node.tag = true → node.leavesReturnTypeOut = false) := by
    decide
  have hfunction := parseTokens_stricter_iff ⟨false, false⟩ ⟨true, false⟩
    nofun nofun tokens none program
  have hboth := parseTokens_stricter_iff ⟨false, false⟩ ⟨true, true⟩
    nofun nofun tokens none program
  exact ⟨hlax, hfunction.mpr ⟨hlax, hstated⟩, fun hstrict => hmethod (hboth.mp hstrict).2⟩

end Programs

end BraceLang
