import BraceLang.Proofs.Construction.Statements
import BraceLang.Proofs.Parsing.Completion
import BraceLang.Proofs.Outline.Basic

/-!
# Error nodes and diagnostics

The error nodes of a program tree, in the order of a walk, hold messages of some of the diagnostics,
in the order of these; and where there is no error node there is no diagnostic. A statement that
fails loses the error nodes of its parts, but it is an error node itself, so both are kept along the
construction of a program.
-/

namespace BraceLang

open BraceLang.Tree (Node Value)

/-- What the error nodes of a value hold, in the order of a walk. -/
def Tree.Value.errors (value : Value) : List Value :=
  (value.nodes.filter Node.isError).map Node.value

/-- Some errors are messages of some reports, in their order, and only without an error is nothing
reported. -/
structure Accounted (errors : List Value) (reports : List Report) : Prop where
  sublist : errors.Sublist (reports.map fun report => .text report.complaint.message)
  silent : errors = [] → reports = []

namespace Accounted

variable {errors more : List Value} {earlier later reports : List Report}

/-- No error and no report. -/
theorem nil : Accounted [] [] := ⟨.slnil, fun _ => rfl⟩

/-- Errors behind errors are accounted for by the reports behind the reports. -/
theorem append (hfirst : Accounted errors earlier) (hsecond : Accounted more later) :
    Accounted (errors ++ more) (earlier ++ later) := by
  refine ⟨?_, fun hnone => ?_⟩
  · rw [List.map_append]
    exact hfirst.sublist.append hsecond.sublist
  · obtain ⟨hfirstNone, hsecondNone⟩ := List.append_eq_nil_iff.mp hnone
    rw [hfirst.silent hfirstNone, hsecond.silent hsecondNone, List.append_nil]

/-- The error in place of what failed is the last report, whatever was reported before. -/
theorem failed (earlier : List Report) (report : Report) :
    Accounted [.text report.complaint.message] (earlier ++ [report]) := by
  refine ⟨?_, fun hnone => absurd hnone (List.cons_ne_nil _ _)⟩
  rw [List.map_append]
  exact List.sublist_append_right _ _

end Accounted

section Errors

open BraceLang.Tree.Value

/-- There is no error in an atom. -/
@[simp] theorem Tree.Value.errors_atom (atom : Atom) : errors (.atom atom) = [] := rfl

/-- There is none in a text. -/
@[simp] theorem Tree.Value.errors_text (text : String) : errors (.text text) = [] := rfl

/-- There is none in an empty list. -/
@[simp] theorem Tree.Value.errors_nil : errors (.list []) = [] := rfl

/-- There is none in an empty record. -/
@[simp] theorem Tree.Value.errors_record_nil : errors (.record []) = [] := rfl

/-- A node that is no error has the errors that it holds. -/
@[simp] theorem Tree.Value.errors_toValue {tag : Tree.Tag} {value : Value} (htag : tag ≠ .error) :
    (Node.toValue ⟨tag, value⟩).errors = value.errors := by
  have herror : ¬Node.isError ⟨tag, value⟩ = true := by simpa [Node.isError] using htag
  change ((⟨tag, value⟩ :: value.nodes).filter Node.isError).map Node.value = _
  rw [List.filter_cons_of_neg herror]
  rfl

/-- The errors of a list are those of its items one behind the other. -/
@[simp] theorem Tree.Value.errors_cons (first : Value) (rest : List Value) :
    errors (.list (first :: rest)) = first.errors ++ errors (.list rest) := by
  simp only [errors, nodes, nodesOfItems, List.filter_append, List.map_append]

/-- The errors of a record are those of its fields one behind the other. -/
@[simp] theorem Tree.Value.errors_record_cons (key : Atom) (first : Value)
    (rest : List (Atom × Value)) :
    errors (.record ((key, first) :: rest)) = first.errors ++ errors (.record rest) := by
  simp only [errors, nodes, nodesOfFields, List.filter_append, List.map_append]

/-- Where no item has an error the list has none. -/
@[simp] theorem Tree.Value.errors_map {α : Type} {view : α → Value}
    (hview : ∀ item, (view item).errors = []) (items : List α) :
    errors (.list (items.map view)) = [] := by
  induction items with
  | nil => rfl
  | cons first rest ih => rw [List.map_cons, errors_cons, hview, ih, List.nil_append]

end Errors

mutual

/-- Types have no errors. -/
theorem TypeExpr.errors_toNode : (type : TypeExpr) → type.toNode.toValue.errors = []
  | .mk name arguments => by
    simp [TypeExpr.toNode, Tree.Value.named, TypeExpr.errors_toValues arguments]

/-- Rows of types have no errors. -/
theorem TypeExpr.errors_toValues :
    (types : List TypeExpr) → Tree.Value.errors (.list (TypeExpr.toValues types)) = []
  | [] => rfl
  | type :: rest => by
    simp [TypeExpr.toValues, TypeExpr.errors_toNode type, TypeExpr.errors_toValues rest]

end

/-- A type that may be left out has no errors. -/
@[simp] theorem TypeExpr.errors_optionToValue (type : Option TypeExpr) :
    (TypeExpr.optionToValue type).errors = [] := by
  cases type with
  | none => rfl
  | some type => exact type.errors_toNode

/-- A name has no errors. -/
@[simp] theorem Name.errors_toNode (name : Name) : name.toNode.toValue.errors = [] := by
  unfold Name.toNode
  split
  · simp
  · simp [Tree.Value.named, TypeExpr.errors_toValues]

/-- A parameter has no errors. -/
@[simp] theorem Parameter.errors_toNode (parameter : Parameter) :
    parameter.toNode.toValue.errors = [] := by
  simp [Parameter.toNode, Tree.Value.named]

/-- A field of a struct has no errors. -/
@[simp] theorem StructField.errors_toNode (field : StructField) :
    field.toNode.toValue.errors = [] := by
  simp [StructField.toNode, Tree.Value.named, TypeExpr.errors_toNode]

/-- The errors of a block are those of its statements. -/
@[simp] theorem Tree.Node.errors_block (items : List Value) :
    (Node.block items).toValue.errors = Tree.Value.errors (.list items) :=
  Tree.Value.errors_toValue (by simp)

/-- The errors of a call are those of its parts. -/
@[simp] theorem Tree.Node.errors_call (callee : Node) (arguments : List Value) :
    (Node.call callee arguments).toValue.errors =
      callee.toValue.errors ++ Tree.Value.errors (.list arguments) := by
  simp [Node.call, Tree.Value.named]

/-- The errors of an access are those of its parts. -/
@[simp] theorem Tree.Node.errors_scope (scope member : Node) :
    (Node.scope scope member).toValue.errors = scope.toValue.errors ++ member.toValue.errors := by
  simp [Node.scope, Tree.Value.named]

/-- The errors of a conditional statement are those of its parts. -/
@[simp] theorem Tree.Node.errors_conditional (condition body : Node) (otherwise : Value) :
    (Node.conditional condition body otherwise).toValue.errors =
      condition.toValue.errors ++ (body.toValue.errors ++ otherwise.errors) := by
  simp [Node.conditional, Tree.Value.named]

mutual

/-- The error nodes of an expression are accounted for by the reports that it is built with. -/
theorem Expression.Built.accounted {options : Options} {levels : Nat} {expression : Expression}
    {reports : List Report} : Expression.Built options levels expression reports →
    Accounted expression.toNode.toValue.errors reports
  | .number _ | .string _ | .boolean _ | .name _ => by
    simpa [Expression.toNode] using Accounted.nil
  | .group hvalue => hvalue.accounted
  | .array hitems => by simpa [Expression.toNode] using hitems.accounted
  | .structLiteral _ hfields => by
    simpa [Expression.toNode, Tree.Value.named] using hfields.accounted
  | .binary hleft hright => by
    simpa [Expression.toNode, Tree.Value.named] using hleft.accounted.append hright.accounted
  | .unary hoperand => by simpa [Expression.toNode, Tree.Value.named] using hoperand.accounted
  | .member hscope => by simpa [Expression.toNode] using hscope.accounted
  | .memberCall hscope harguments => by
    simpa [Expression.toNode] using hscope.accounted.append harguments.accounted
  | .call _ harguments => by simpa [Expression.toNode] using harguments.accounted
  | .function _ hbody => by
    simpa [Expression.toNode, Tree.Value.named, TypeExpr.errors_toNode] using hbody.accounted
  | .error report => .failed [] report

/-- So are the error nodes of rows of expressions. -/
theorem Expression.AllBuilt.accounted {options : Options} {levels : Nat} {items : List Expression}
    {reports : List Report} : Expression.AllBuilt options levels items reports →
    Accounted (Tree.Value.errors (.list (Expression.toValues items))) reports
  | .nil => .nil
  | .cons hfirst hrest => by
    simpa [Expression.toValues] using hfirst.accounted.append hrest.accounted

/-- So are the error nodes of the values of fields. -/
theorem Expression.FieldsBuilt.accounted {options : Options} {levels : Nat}
    {fields : List (String × Expression)} {reports : List Report} :
    Expression.FieldsBuilt options levels fields reports →
    Accounted (Tree.Value.errors (.record (Expression.fieldsToValues fields))) reports
  | .nil => .nil
  | .cons hfirst hrest => by
    simpa [Expression.fieldsToValues] using hfirst.accounted.append hrest.accounted

/-- The error nodes of a statement are accounted for by the reports that it is built with. -/
theorem Statement.Built.accounted {options : Options} {levels : Nat} {statement : Statement}
    {reports : List Report} : Statement.Built options levels statement reports →
    Accounted statement.toNode.toValue.errors reports
  | .declaration _ hvalue => by simpa [Statement.toNode, Tree.Value.named] using hvalue.accounted
  | .conditional (.mk hcondition hbody) hothers hotherwise => by
    have hlater := hothers.accounted hotherwise.accounted
    simpa [Statement.toNode] using (hcondition.accounted.append hbody.accounted).append hlater
  | .whileLoop hcondition hbody => by
    simpa [Statement.toNode, Tree.Value.named] using hcondition.accounted.append hbody.accounted
  | .forLoop hiterable hbody => by
    simpa [Statement.toNode, Tree.Value.named] using hiterable.accounted.append hbody.accounted
  | .breakLoop | .continueLoop | .returnNothing => by
    simpa [Statement.toNode] using Accounted.nil
  | .returnValue hvalue | .expression hvalue => by
    simpa [Statement.toNode] using hvalue.accounted
  | .struct _ => by simpa [Statement.toNode, Tree.Value.named] using Accounted.nil
  | .impl hmethods => by simpa [Statement.toNode, Tree.Value.named] using hmethods.accounted
  | .function hfunction => hfunction.accounted (by simp)
  | .error earlier report => .failed earlier report

/-- So are the error nodes of rows of statements. -/
theorem Statement.AllBuilt.accounted {options : Options} {levels : Nat} {items : List Statement}
    {reports : List Report} : Statement.AllBuilt options levels items reports →
    Accounted (Tree.Value.errors (.list (Statement.toValues items))) reports
  | .nil => .nil
  | .cons hfirst hrest => by
    simpa [Statement.toValues] using hfirst.accounted.append hrest.accounted

/-- So are the error nodes of the block for when no branch is taken. -/
theorem Statement.OtherwiseBuilt.accounted {options : Options} {levels : Nat}
    {otherwise : Option (List Statement)} {reports : List Report} :
    Statement.OtherwiseBuilt options levels otherwise reports →
    Accounted (Statement.otherwiseToValue otherwise).errors reports
  | .none => .nil
  | .some hbody => by simpa [Statement.otherwiseToValue] using hbody.accounted

/-- So are the error nodes of branches with what stands behind them. -/
theorem Branch.AllBuilt.accounted {options : Options} {levels : Nat} {branches : List Branch}
    {reports last : List Report} {otherwise : Value} :
    Branch.AllBuilt options levels branches reports → Accounted otherwise.errors last →
    Accounted (Branch.toValue branches otherwise).errors (reports ++ last)
  | .nil, hlast => hlast
  | .cons (.mk hcondition hbody) hrest, hlast => by
    have hlater := hrest.accounted hlast
    simpa [Branch.toValue] using (hcondition.accounted.append hbody.accounted).append hlater

/-- The error nodes of a function are those of its body. -/
theorem Function.Built.accounted {options : Options} {levels : Nat} {stated : Bool}
    {function : Function} {reports : List Report} {tag : Tree.Tag} :
    Function.Built options levels stated function reports → tag ≠ .error →
    Accounted (function.toNode tag).toValue.errors reports
  | .mk _ _ _ hbody, htag => by
    simpa [Function.toNode, Tree.Value.named, htag] using hbody.accounted

/-- The error nodes of methods are those of their bodies. -/
theorem Function.AllBuilt.accounted {options : Options} {levels : Nat} {methods : List Function}
    {reports : List Report} : Function.AllBuilt options levels methods reports →
    Accounted (Tree.Value.errors (.list (Function.toValues methods))) reports
  | .nil => .nil
  | .cons hfirst hrest => by
    simpa [Function.toValues] using
      (hfirst.accounted (show Tree.Tag.method ≠ .error by simp)).append hrest.accounted

end

/-- The diagnostic of a report has its message and its place. -/
theorem Diagnostic.make_location {lines : Option (Array (List Char))} {kind : DiagnosticKind}
    {message : String} {location : Option Location} :
    (Diagnostic.make lines kind message location).message = message ∧
      (Diagnostic.make lines kind message location).location = location := by
  cases location <;> cases lines <;> exact ⟨rfl, rfl⟩

/-- The messages of the diagnostics are those of the reports. -/
theorem Input.map_message_reportTo {γ : Type} (view : String → γ) (input : Input)
    (reports : List Report) (source : Option String) :
    ((input.reportTo reports (.empty source)).reported.map fun diagnostic =>
      view diagnostic.message) = reports.map fun report => view report.complaint.message := by
  simp [reportTo, Diagnostic.Collector.reportAll, Diagnostic.Collector.empty, Function.comp_def,
    Diagnostic.make_location]

/-- The last of some reports is the last diagnostic. -/
theorem Input.getLast?_reportTo (input : Input) (reports : List Report) (last : Report)
    (collector : Diagnostic.Collector) :
    (input.reportTo (reports ++ [last]) collector).reported.getLast? =
      some (.make (collector.source.map Diagnostic.linesOf) .unexpectedToken
        last.complaint.message (some (input.placeOf last))) := by
  simp [reportTo, Diagnostic.Collector.reportAll]

/-- A report about a part of an input at its end names the token at the place that it has there. -/
theorem Report.IsAbout.found_eq {report : Report} {reached : List Lexeme} {input : Input}
    (habout : report.IsAbout reached) (hreached : reached <:+ input.lexemes) :
    report.complaint.found =
      input.tokens[input.tokens.size - report.left]?.map Token.toLexeme := by
  obtain ⟨before, hbefore⟩ := hreached
  have hsize : input.tokens.size = before.length + reached.length := by
    rw [← List.length_append, hbefore, Input.lexemes, List.length_map, Array.length_toList]
  have hlexeme : input.lexemes[before.length]? = reached.head? := by
    rw [← hbefore, List.getElem?_append_right (Nat.le_refl _), Nat.sub_self, List.head?_eq_getElem?]
  rw [habout.found, habout.left, hsize, Nat.add_sub_cancel, ← hlexeme, Input.lexemes,
    List.getElem?_map, Array.getElem?_toList]

/-- The step of a session fails with the last of its reports. -/
theorem Session.step_eq_error {session next : Session} {report : Report} {parser : Parser α}
    (hstep : session.step parser = .ok (.error report, next)) :
    ∃ rest reports, parser session.unread = .failed report rest reports ∧
      next = ⟨session.input, rest, session.reports ++ reports ++ [report]⟩ := by
  unfold Session.step at hstep
  split at hstep
  · simp at hstep
  · next failure rest reports hrun =>
    obtain ⟨hreport, hnext⟩ := Prod.mk.inj (Except.ok.inj hstep)
    cases hreport
    exact ⟨rest, reports, hrun, hnext.symm⟩
  · cases hstep

/-- Error nodes and diagnostics account for each other, whatever is parsed. There is an error node
in the tree exactly if there is a diagnostic, and the error nodes hold, in the order of a walk, the
messages of some of the diagnostics in the order of these. When a parser of a session fails, its
complaint is the last diagnostic, at the place that the report is about; and if the session reads a
part of its input at the end, the complaint names the token at that place. -/
theorem errors_accounted (options : Options) :
    (∀ tokens source program diagnostics,
      parseTokens tokens source options = .ok (program, diagnostics) →
      let walk := (Statement.blockToNode program).walk
      ((∃ node ∈ walk, node.isError = true) ↔ diagnostics ≠ []) ∧
      ((walk.filter Node.isError).map Node.value).Sublist
        (diagnostics.map fun diagnostic => .text diagnostic.message)) ∧
    ∀ (entry : Entry) (session next : Session) (report : Report) (collector : Diagnostic.Collector),
      session.step (entry.parser options) = .ok (.error report, next) →
      (∃ last, (next.input.reportTo next.reports collector).reported.getLast? = some last ∧
        last.message = report.complaint.message ∧
        last.location = some (session.input.placeOf report)) ∧
      (session.unread <:+ session.input.lexemes → report.complaint.found =
        session.input.tokens[session.input.tokens.size - report.left]?.map Token.toLexeme) := by
  constructor
  · intro tokens source program diagnostics hparsed walk
    obtain ⟨reports, hreply, rfl⟩ := parseTokens_eq_ok hparsed
    have hbuilt := program_yields_built options (Input.ofTokens tokens).lexemes
    rw [hreply] at hbuilt
    have haccounted := hbuilt.accounted
    have herrors : (walk.filter Node.isError).map Node.value =
        Tree.Value.errors (.list (Statement.toValues program)) :=
      Tree.Node.errors_block (Statement.toValues program)
    have hempty : (∃ node ∈ walk, node.isError = true) ↔
        (walk.filter Node.isError).map Node.value ≠ [] := by
      simp [List.filter_eq_nil_iff]
    constructor
    · rw [hempty, herrors, ne_eq, ne_eq, not_iff_not, Input.reportTo_reported_eq_nil]
      refine ⟨haccounted.silent, ?_⟩
      rintro rfl
      exact List.sublist_nil.mp haccounted.sublist
    · rw [herrors, Input.map_message_reportTo]
      exact haccounted.sublist
  · intro entry session next report collector hstep
    obtain ⟨rest, reports, hrun, rfl⟩ := Session.step_eq_error hstep
    refine ⟨⟨_, Input.getLast?_reportTo _ _ _ _, Diagnostic.make_location⟩, fun hunread => ?_⟩
    have hruns := (entry.outline options).runs session.unread
    rw [hrun] at hruns
    obtain ⟨reached, hreached, habout⟩ := Run.isAbout hruns
      (List.mem_append_right reports (List.mem_singleton_self report))
    exact habout.found_eq (hreached.trans hunread)

/-- A declaration without a name and a parenthesis without an expression make three error nodes for
four diagnostics; and a semicolon is no type. -/
theorem errors_accounted_unnamed :
    let tokens := [⟨.keyword, "let"⟩, ⟨.symbol, ";"⟩, ⟨.symbol, ")"⟩, ⟨.symbol, ";"⟩].map
      fun lexeme => Token.mk lexeme (.start "main")
    (∃ program diagnostics, parseTokens tokens none {} = .ok (program, diagnostics) ∧
      diagnostics.length = 4 ∧
      (((Statement.blockToNode program).walk.filter Node.isError).map Node.value).Sublist
        (diagnostics.map fun diagnostic => .text diagnostic.message)) ∧
    ∃ next report last, (Session.start (Input.ofTokens tokens.tail)).step (Entry.type.parser {}) =
        .ok (.error report, next) ∧
      (next.input.reportTo next.reports (.empty none)).reported.getLast? = some last ∧
      last.message = report.complaint.message := by
  intro tokens
  constructor
  · have hreply : Parser.program {}
        [⟨.keyword, "let"⟩, ⟨.symbol, ";"⟩, ⟨.symbol, ")"⟩, ⟨.symbol, ";"⟩] =
        .done [.error (.unexpected (some ⟨.symbol, ";"⟩) .variableName),
            .error (.unexpected (some ⟨.symbol, ")"⟩) .terminator),
            .expression (.error (.unexpected (some ⟨.symbol, ")"⟩) .expression))] []
          [⟨3, .unexpected (some ⟨.symbol, ";"⟩) .variableName⟩,
            ⟨3, .unexpected (some ⟨.symbol, ";"⟩) .expression⟩,
            ⟨2, .unexpected (some ⟨.symbol, ")"⟩) .terminator⟩,
            ⟨2, .unexpected (some ⟨.symbol, ")"⟩) .expression⟩] := rfl
    have hparsed : parseTokens tokens none {} = _ := parseTokens_of_done none hreply
    exact ⟨_, _, hparsed, Input.reportTo_reported _ _ none,
      ((errors_accounted {}).1 tokens none _ _ hparsed).2⟩
  · have hstep : (Session.start (Input.ofTokens tokens.tail)).step (Entry.type.parser {}) =
        .ok (.error ⟨3, .unexpected (some ⟨.symbol, ";"⟩) .typeName⟩, _) := rfl
    obtain ⟨⟨last, hlast, hmessage, -⟩, -⟩ :=
      (errors_accounted {}).2 .type _ _ _ (.empty none) hstep
    exact ⟨_, _, last, hstep, hlast, hmessage⟩

end BraceLang
