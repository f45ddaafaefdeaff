import ModuleLoader.Proofs.Script.Failing
import ModuleLoader.Proofs.Script.Locals

/-!
# What scripts write to the globals

An assignment to a bare name reaches the globals when the name is not local; besides, a host function
may define globals, and nothing else reaches them.  What is written is listed beside what a statement
does.  Main statements: `Run.globals_statements`, a
script leaves the globals with what it has written, and `Run.mem_statementsGlobals`, where each entry
comes from.
-/

set_option autoImplicit false

namespace ModuleLoader.Script

/-! ## Host functions -/

/-- What something that a host function does writes to the globals. -/
def Effect.globalWrites : Effect → List (String × Value)
  | .define name value => [(name, value)]
  | .print _ | .alloc | .write _ _ _ | .remember _ => []

/-- What host functions do changes of the globals what it writes to them. -/
theorem Engine.globals_actAll (e : Engine) (effects : List Effect) :
    (e.actAll effects).globals = e.globals.setAll (effects.flatMap Effect.globalWrites) := by
  induction effects generalizing e with
  | nil => rfl
  | cons effect effects ih =>
    have hfirst : (e.act effect).globals = e.globals.setAll effect.globalWrites := by
      cases effect <;> rfl
    show ((e.act effect).actAll effects).globals = _
    rw [ih, hfirst, List.flatMap_cons]
    exact (List.foldl_append ..).symm

/-- A host function that does not touch the globals. -/
def Native.SparesGlobals (native : Native) : Prop :=
  ∀ heap memory args name value, .define name value ∉ (native.call heap memory args).1

namespace Run

/-- What an assignment writes to the globals. -/
def assignedGlobals (r : Run) (target : Path) (value : Value) : List (String × Value) :=
  if target.properties = [] ∧ r.locals.contains target.head = false then [(target.head, value)]
  else []

/-- What a statement writes to the globals. -/
def globalWrites (r : Run) : Action → List (String × Value)
  | .assign target value =>
    match r.evaluate value with
    | (.error _, _) => []
    | (.ok v, r') => r'.assignedGlobals target v
  | .call callee args => (r.callEffects callee args).flatMap Effect.globalWrites
  | .var _ _ | .declareRoot _ | .throw _ | .expression _ => []

/-- What the statements of a program write to the globals, up to the first that fails. -/
def statementsGlobals (r : Run) : Program → List (String × Value)
  | [] => []
  | s :: rest =>
    match r.perform s.action with
    | (.error _, _) => r.globalWrites s.action
    | (.ok _, r') => r.globalWrites s.action ++ r'.statementsGlobals rest

/-- A call changes of the globals what its host function writes to them. -/
theorem globals_call (r : Run) (callee : String) (args : List Expression) :
    (r.call callee args).2.engine.globals =
      r.engine.globals.setAll (r.globalWrites (.call callee args)) := by
  obtain ⟨mid, hintact, -, hmid⟩ := r.call_acts callee args
  rw [hmid, ← hintact.globals]
  exact mid.engine.globals_actAll _

/-- A declaration writes no globals. -/
theorem globals_declareRoot (r : Run) (path : String) :
    (r.declareRoot path).2.engine.globals = r.engine.globals := by
  unfold declareRoot
  simp only
  split <;> rfl

/-- An assignment writes the global it is to, if it is to one. -/
theorem globals_assign (r : Run) (target : Path) (value : Value) :
    (r.assign target value).2.engine.globals =
      r.engine.globals.setAll (r.assignedGlobals target value) := by
  unfold assign assignedGlobals
  split
  · rename_i hlast
    have hbare : target.properties = [] := List.getLast?_eq_none_iff.1 hlast
    unfold assignName
    split
    · rename_i hlocal
      rw [if_neg (by simp [hlocal])]
      rfl
    · rename_i hlocal
      rw [if_pos ⟨hbare, by simpa using hlocal⟩]
      rfl
  · rename_i last hlast
    have hlong : target.properties ≠ [] := by
      intro hnil
      rw [hnil] at hlast
      cases hlast
    rw [if_neg fun h => hlong h.1]
    split <;> rfl

/-- A statement changes of the globals what it writes to them. -/
theorem globals_perform (r : Run) (action : Action) :
    (r.perform action).2.engine.globals = r.engine.globals.setAll (r.globalWrites action) := by
  generalize houtcome : r.perform action = outcome
  cases performs_of_eq houtcome with
  | varFails _ value hvalue | var _ value hvalue | throwFails value hvalue | throw value hvalue =>
    have hsame := (r.evaluate_intact value).globals
    rw [hvalue] at hsame
    exact hsame
  | declareFails path hdeclare | declare path hdeclare =>
    have hsame := r.globals_declareRoot path
    rw [hdeclare] at hsame
    exact hsame
  | assignFails target value hvalue =>
    have hsame := (r.evaluate_intact value).globals
    rw [hvalue] at hsame
    simp only [globalWrites, hvalue]
    exact hsame
  | @assignStops target value v _ r' _ hvalue hassign | @assign target value v r' _ hvalue hassign =>
    have hsame := (r.evaluate_intact value).globals
    rw [hvalue] at hsame
    have hnext := r'.globals_assign target v
    rw [hassign, hsame] at hnext
    simpa only [globalWrites, hvalue] using hnext
  | call callee args hcall => exact hcall ▸ r.globals_call callee args
  | expression value hvalue => exact hvalue ▸ (r.evaluate_intact value).globals

/-- A program changes of the globals what its statements write to them. -/
theorem globals_statements (r : Run) (last : Value) (program : Program) :
    (Run.statements r last program).2.engine.globals =
      r.engine.globals.setAll (r.statementsGlobals program) := by
  induction program generalizing r last with
  | nil => rfl
  | cons s rest ih =>
    have hfirst := r.globals_perform s.action
    unfold Run.statements statementsGlobals
    rcases hp : r.perform s.action with ⟨f | v, r'⟩ <;> rw [hp] at hfirst
    · exact hfirst
    · show (Run.statements r' v rest).2.engine.globals = _
      rw [ih r' v, hfirst]
      exact (List.foldl_append ..).symm

/-- Where no host function touches the globals, a statement that writes to them is an assignment of the
value to a name that is not local. -/
theorem mem_globalWrites {r : Run} (hspares : r.engine.AllNatives Native.SparesGlobals) {action : Action}
    {name : String} {v : Value} (h : (name, v) ∈ r.globalWrites action) :
    ∃ value, action = .assign ⟨name, []⟩ value ∧
      (r.evaluate value).1 = .ok v ∧ r.locals.get? name = none := by
  cases action with
  | assign target value =>
    have hlocals := r.locals_evaluate value
    unfold globalWrites at h
    simp only at h
    rcases he : r.evaluate value with ⟨f | w, r'⟩ <;> rw [he] at h hlocals
    · cases h
    · simp only [assignedGlobals] at h hlocals
      split at h
      · rename_i hbare
        obtain ⟨head, properties⟩ := target
        obtain ⟨rfl, hname⟩ := hbare
        cases List.mem_singleton.1 h
        refine ⟨value, rfl, congrArg Prod.fst he, ?_⟩
        rw [← hlocals]
        simpa [Table.contains] using hname
      · cases h
  | call callee args =>
    obtain ⟨effect, heffect, hwrite⟩ := List.mem_flatMap.1 h
    cases effect with
    | define other value =>
      obtain ⟨native, heap, memory, values, hnative, hdefines⟩ :=
        exists_native_of_mem_callEffects heffect
      exact absurd hdefines (hspares callee native hnative heap memory values other value)
    | print | alloc | write | remember => cases hwrite
  | var | declareRoot | throw | expression => cases h

/-- Where no host function touches the globals, what a program writes to them is assigned by a
statement that is reached, to a name that is neither local from the start nor bound by a statement
before it. -/
theorem mem_statementsGlobals {r : Run} (hspares : r.engine.AllNatives Native.SparesGlobals) (last : Value)
    {program : Program} {name : String} {v : Value}
    (h : (name, v) ∈ r.statementsGlobals program) :
    ∃ before s after value w mid, program = before ++ s :: after ∧
      Run.statements r last before = (.ok w, mid) ∧ s.action = .assign ⟨name, []⟩ value ∧
      (mid.evaluate value).1 = .ok v ∧ r.locals.get? name = none ∧
      ∀ t ∈ before, ∀ init, t.action ≠ .var name init := by
  obtain ⟨before, s, after, w, mid, rfl, hbefore, hwrite⟩ :
      ∃ before s after w mid, program = before ++ s :: after ∧
        Run.statements r last before = (.ok w, mid) ∧ (name, v) ∈ mid.globalWrites s.action := by
    clear hspares
    induction program generalizing r last with
    | nil => cases h
    | cons s rest ih =>
      unfold statementsGlobals at h
      rcases hp : r.perform s.action with ⟨f | w, r'⟩ <;> rw [hp] at h
      · exact ⟨[], s, rest, last, r, rfl, rfl, h⟩
      · rcases List.mem_append.1 h with hhere | hlater
        · exact ⟨[], s, rest, last, r, rfl, rfl, hhere⟩
        · obtain ⟨before, t, after, w', mid, rfl, hbefore, hwrite⟩ := ih w hlater
          refine ⟨s :: before, t, after, w', mid, rfl, ?_, hwrite⟩
          unfold Run.statements
          rw [hp]
          exact hbefore
  have hnatives := r.natives_statements last before
  rw [hbefore] at hnatives
  obtain ⟨value, haction, hvalue, hlocal⟩ := mem_globalWrites (hspares.of_natives hnatives) hwrite
  have hnot := (not_congr (binds_statements hbefore name)).1 (not_not_intro hlocal)
  rw [not_or, not_not] at hnot
  exact ⟨before, s, after, value, w, mid, rfl, hbefore, haction, hvalue, hnot.1,
    fun t ht init hinit => hnot.2 ⟨t, ht, init, hinit⟩⟩

/-- A name that is not local is looked up among the globals. -/
theorem lookup_of_statements {r r' : Run} {last v : Value} {program : Program}
    (h : Run.statements r last program = (.ok v, r')) {name : String}
    (hlocal : r.locals.get? name = none) (hvar : ∀ s ∈ program, ∀ init, s.action ≠ .var name init) :
    r'.lookup name = r'.engine.globals.get? name := by
  have hnone : r'.locals.get? name = none := by
    by_contra hbound
    rcases (binds_statements h name).1 hbound with hfirst | ⟨s, hs, init, hinit⟩
    · exact hfirst hlocal
    · exact hvar s hs init hinit
  unfold lookup
  rw [hnone]

end Run

namespace Engine

/-- What a script writes to the globals, in turn. -/
def globalWrites (e : Engine) (source : String) (bindings : Table Value) : List (String × Value) :=
  match parseProgram source with
  | .error _ => []
  | .ok program => Run.statementsGlobals ⟨e, bindings⟩ program

/-- Whether a script succeeds or fails, the globals are left with what it has written to them. -/
theorem globals_evaluate (e : Engine) (source : String) (bindings : Table Value) :
    (e.evaluate source bindings).2.globals = e.globals.setAll (e.globalWrites source bindings) := by
  unfold globalWrites
  cases hparse : parseProgram source with
  | error err =>
    rw [evaluate_of_error hparse]
    rfl
  | ok program =>
    rw [evaluate_of_ok hparse]
    exact Run.globals_statements ⟨e, bindings⟩ .undefined program

/-- Where no host function touches the globals, what a script writes to them is assigned by a statement
of it that is reached, to a name that is neither in its bindings nor bound by a statement before it. -/
theorem mem_globalWrites {e : Engine} (hspares : e.AllNatives Native.SparesGlobals) {source : String}
    {bindings : Table Value} {name : String} {v : Value}
    (h : (name, v) ∈ e.globalWrites source bindings) :
    ∃ before s after value w r, parseProgram source = .ok (before ++ s :: after) ∧
      Run.statements ⟨e, bindings⟩ .undefined before = (.ok w, r) ∧
      s.action = .assign ⟨name, []⟩ value ∧ (r.evaluate value).1 = .ok v ∧
      bindings.get? name = none ∧ ∀ t ∈ before, ∀ init, t.action ≠ .var name init := by
  unfold globalWrites at h
  cases hparse : parseProgram source with
  | error err =>
    rw [hparse] at h
    cases h
  | ok program =>
    rw [hparse] at h
    have hstart : (Run.mk e bindings).engine.AllNatives Native.SparesGlobals := hspares
    obtain ⟨before, s, after, value, w, r, rfl, hrest⟩ :=
      Run.mem_statementsGlobals hstart .undefined h
    exact ⟨before, s, after, value, w, r, rfl, hrest⟩

/-- No script changes the functions there are. -/
theorem natives_evaluate (e : Engine) (source : String) (bindings : Table Value) :
    (e.evaluate source bindings).2.natives = e.natives := by
  cases hparse : parseProgram source with
  | error err => rw [evaluate_of_error hparse]
  | ok program =>
    rw [evaluate_of_ok hparse]
    exact Run.natives_statements ⟨e, bindings⟩ .undefined program

end Engine

end ModuleLoader.Script
