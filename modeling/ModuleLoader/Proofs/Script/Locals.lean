import ModuleLoader.Proofs.Script.Acting

/-!
# Names that a script binds

A script binds local names by its bindings alone; an assignment to a bare name changes a local that is
there, or a global.  Main statement: `Run.binds_statements`.
-/

set_option autoImplicit false

namespace ModuleLoader.Script

namespace Run

/-- A call changes no local name. -/
theorem locals_call (r : Run) (callee : String) (args : List Expression) :
    (r.call callee args).2.locals = r.locals := by
  obtain ⟨mid, -, hlocals, hmid⟩ := r.call_acts callee args
  rw [hmid]
  exact hlocals

/-- A declaration binds no local name. -/
theorem locals_declareRoot (r : Run) (path : String) : (r.declareRoot path).2.locals = r.locals := by
  unfold declareRoot
  simp only
  split <;> rfl

/-- An assignment binds no new local name. -/
theorem binds_assign (r : Run) (target : Path) (value : Value) (name : String) :
    (r.assign target value).2.locals.get? name ≠ none ↔ r.locals.get? name ≠ none := by
  unfold assign
  split
  · unfold assignName
    split
    · rename_i hbound
      show (r.locals.set target.head value).get? name ≠ none ↔ _
      rw [Table.get?_set]
      split
      · rename_i he
        rw [Table.contains, Option.isSome_iff_ne_none] at hbound
        rw [he]
        exact iff_of_true (Option.some_ne_none _) hbound
      · exact Iff.rfl
    · exact Iff.rfl
  · split <;> exact Iff.rfl

/-- A statement that succeeds binds the name of a binding, and no others. -/
theorem binds_perform {r r' : Run} {action : Action} {v : Value}
    (h : r.perform action = (.ok v, r')) (name : String) : r'.locals.get? name ≠ none ↔
      r.locals.get? name ≠ none ∨ ∃ init, action = .var name init := by
  cases performs_of_eq h with
  | @var bound init value r'' hvalue =>
    have hsame := r.locals_evaluate init
    rw [hvalue] at hsame
    show (r''.locals.set bound value).get? name ≠ none ↔ _
    simp only at hsame
    rw [hsame, Table.get?_set]
    by_cases hname : name = bound
    · simp [hname]
    · simp [hname, Ne.symm hname]
  | declare path hdeclare =>
    have hsame := r.locals_declareRoot path
    rw [hdeclare] at hsame
    simp only at hsame
    simp [hsame]
  | @assign target value _ r'' _ hvalue hassign =>
    have hsame := r.locals_evaluate value
    rw [hvalue] at hsame
    have hbinds := r''.binds_assign target v name
    simp only at hsame
    rw [hassign, hsame] at hbinds
    simpa using hbinds
  | call callee args hcall =>
    have hsame := r.locals_call callee args
    rw [hcall] at hsame
    simp only at hsame
    simp [hsame]
  | expression value hvalue =>
    have hsame := r.locals_evaluate value
    rw [hvalue] at hsame
    simp only at hsame
    simp [hsame]

/-- A script that succeeds binds the names of its bindings, and no others. -/
theorem binds_statements {r r' : Run} {last v : Value} {program : Program}
    (h : Run.statements r last program = (.ok v, r')) (name : String) :
    r'.locals.get? name ≠ none ↔
      r.locals.get? name ≠ none ∨ ∃ s ∈ program, ∃ init, s.action = .var name init := by
  induction program generalizing r last with
  | nil =>
    cases h
    simp
  | cons s rest ih =>
    obtain ⟨w, mid, hperform, hrest⟩ := exists_of_statements_cons h
    rw [ih hrest, binds_perform hperform]
    simp [or_assoc]

/-- A name is not found just when it is neither local nor global. -/
theorem lookup_eq_none_iff (r : Run) (name : String) :
    r.lookup name = none ↔ r.locals.get? name = none ∧ r.engine.globals.get? name = none := by
  unfold lookup
  cases r.locals.get? name with
  | none => simp
  | some v => simp

end Run

end ModuleLoader.Script
