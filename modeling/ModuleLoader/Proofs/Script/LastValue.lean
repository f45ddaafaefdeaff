import ModuleLoader.Proofs.Script.Performing
import ModuleLoader.Proofs.Script.Running

/-!
# The value of a script

A run hands on the value of every statement it has carried out, and a binding or a root declaration
comes to `undefined`, so that a script has the value of its last statement and not of its last
expression.  Main statement: `Engine.evaluate_value_iff`, when the value of the last expression is
that of the script although declarations follow it.
-/

set_option autoImplicit false

namespace ModuleLoader.Script

/-- Whether a statement only makes a name or the objects of a root known. -/
def Action.isDeclaration : Action → Bool
  | .var _ _ | .declareRoot _ => true
  | .assign _ _ | .throw _ | .call _ _ | .expression _ => false

namespace Run

/-- A declaration that is carried out has no value of its own. -/
theorem value_of_declaration {r r' : Run} {action : Action} {v : Value}
    (haction : action.isDeclaration = true) (h : r.perform action = (.ok v, r')) :
    v = .undefined := by
  cases performs_of_eq h with
  | var | declare => rfl
  | assign | call | expression => cases haction

/-- Declarations, if there are any, replace the value handed on to them by `undefined`. -/
theorem value_of_declarations {r r' : Run} {last v : Value} {program : Program}
    (hdeclares : ∀ s ∈ program, s.action.isDeclaration = true)
    (h : statements r last program = (.ok v, r')) :
    v = if program.isEmpty then last else .undefined := by
  induction program generalizing r last with
  | nil =>
    cases h
    rfl
  | cons s rest ih =>
    obtain ⟨u, mid, hperform, hrest⟩ := exists_of_statements_cons h
    have hu : u = .undefined := value_of_declaration (hdeclares s List.mem_cons_self) hperform
    have hv := ih (fun t ht => hdeclares t (List.mem_cons_of_mem s ht)) hrest
    rw [hv, hu, ite_self]
    rfl

end Run

/-- A script that succeeds, and whose last expression has only declarations behind it, carries out what
stands before the expression and finds a value for it.  It comes to that value if nothing follows and
to `undefined` else; so it comes to the value of its last expression just when that one ends the
script or has the value `undefined` itself. -/
theorem Engine.evaluate_value_iff {e e' : Engine} {source : String} {bindings : Table Value}
    {before after : Program} {x : Expression} {span : Span} {v : Value}
    (hparse : parseProgram source = .ok (before ++ ⟨.expression x, span⟩ :: after))
    (hafter : ∀ s ∈ after, s.action.isDeclaration = true)
    (h : e.evaluate source bindings = (.ok v, e')) :
    ∃ w r u, Run.statements ⟨e, bindings⟩ .undefined before = (.ok w, r) ∧
      (r.evaluate x).1 = .ok u ∧ v = (if after.isEmpty then u else .undefined) ∧
      (v = u ↔ after = [] ∨ u = .undefined) := by
  rw [evaluate_of_ok hparse] at h
  rcases hrun : Run.statements ⟨e, bindings⟩ .undefined
    (before ++ ⟨.expression x, span⟩ :: after) with ⟨result, last⟩
  rw [hrun] at h
  obtain rfl : result = .ok v := congrArg Prod.fst h
  obtain ⟨w, r, hbefore, hrest⟩ := Run.exists_of_statements_append hrun
  obtain ⟨u, mid, hperform, hdeclared⟩ := Run.exists_of_statements_cons hrest
  have hvalue := Run.value_of_declarations hafter hdeclared
  refine ⟨w, r, u, hbefore, congrArg Prod.fst hperform, hvalue, ?_⟩
  cases after with
  | nil => simp [hvalue]
  | cons s after =>
    rw [hvalue]
    simp [eq_comm]

/-- A property is read and then two declarations follow: the script does not come to the number that
was read. -/
theorem Engine.evaluate_value_declared :
    let source := "a = {}\na.n = 3\na.n\nvar b = a\ndeclare-root('b.c')"
    let before : Program := [⟨.assign ⟨"a", []⟩ .emptyObject, ⟨⟨0, 1, 1⟩, 1⟩⟩,
      ⟨.assign ⟨"a", ["n"]⟩ (.number ⟨0x4008000000000000⟩), ⟨⟨7, 2, 1⟩, 8⟩⟩]
    let x : Expression := .path ⟨"a", ["n"]⟩
    let after : Program := [⟨.var "b" (.path ⟨"a", []⟩), ⟨⟨19, 4, 1⟩, 22⟩⟩,
      ⟨.declareRoot "b.c", ⟨⟨29, 5, 1⟩, 41⟩⟩]
    parseProgram source = .ok (before ++ ⟨.expression x, ⟨⟨15, 3, 1⟩, 16⟩⟩ :: after) ∧
      (∀ s ∈ after, s.action.isDeclaration = true) ∧
      (initial.evaluate source Table.empty).1 = .ok .undefined ∧
      ∃ w r u, Run.statements ⟨initial, Table.empty⟩ .undefined before = (.ok w, r) ∧
        (r.evaluate x).1 = .ok u ∧ (Value.undefined = u ↔ after = [] ∨ u = .undefined) := by
  intro source before x after
  have hafter : ∀ s ∈ after, s.action.isDeclaration = true := by decide +revert
  have hparse : parseProgram source =
      .ok (before ++ ⟨.expression x, ⟨⟨15, 3, 1⟩, 16⟩⟩ :: after) := by
    decide +kernel +revert
  have hvalue : (initial.evaluate source Table.empty).1 = .ok .undefined := by
    decide +kernel +revert
  obtain ⟨w, r, u, hbefore, hu, -, hiff⟩ :=
    Engine.evaluate_value_iff hparse hafter (Prod.ext hvalue rfl)
  exact ⟨hparse, hafter, hvalue, w, r, u, hbefore, hu, hiff⟩

end ModuleLoader.Script
