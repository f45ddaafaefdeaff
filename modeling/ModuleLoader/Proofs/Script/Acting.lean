import ModuleLoader.Proofs.Script.Performing

/-!
# Calls of host functions

The expressions of a statement apply nothing: at most they make objects that nothing refers to yet.  A
call evaluates its arguments and then lets a host function act on the engine, which changes neither
the local names nor the functions there are.  Main statements: `Run.call_acts`, and
`Run.natives_statements` for a whole run.
-/

set_option autoImplicit false

namespace ModuleLoader.Script

/-! ## Nothing applied -/

/-- The later of two engines has the names, the functions with what they remember and the output of
the earlier one and all its objects as they were.  It may have more objects, which are empty. -/
structure Engine.Intact (e e' : Engine) : Prop where
  globals : e'.globals = e.globals
  natives : e'.natives = e.natives
  memory : e'.memory = e.memory
  output : e'.output = e.output
  kept : ∀ o, e.heap.Has o → e'.heap.Has o
  objects : ∀ o, e'.heap.properties o = e.heap.properties o

/-- An engine is intact as long as nothing is done. -/
theorem Engine.Intact.refl (e : Engine) : e.Intact e :=
  ⟨rfl, rfl, rfl, rfl, fun _ ho => ho, fun _ => rfl⟩

/-- What is intact twice over is intact. -/
theorem Engine.Intact.trans {e e' e'' : Engine} (h : e.Intact e') (h' : e'.Intact e'') :
    e.Intact e'' where
  globals := h'.globals.trans h.globals
  natives := h'.natives.trans h.natives
  memory := h'.memory.trans h.memory
  output := h'.output.trans h.output
  kept o ho := h'.kept o (h.kept o ho)
  objects o := (h'.objects o).trans (h.objects o)

/-- A fresh object leaves an engine intact. -/
theorem Engine.intact_alloc (e : Engine) : e.Intact e.alloc.2 where
  globals := rfl
  natives := rfl
  memory := rfl
  output := rfl
  kept o ho := (e.heap.has_alloc o).2 (.inl ho)
  objects o := e.heap.properties_alloc o

namespace Run

/-- Evaluating an expression applies nothing. -/
theorem evaluate_intact (r : Run) (x : Expression) : r.engine.Intact (r.evaluate x).2.engine := by
  cases x with
  | emptyObject => exact r.engine.intact_alloc
  | number | string | boolean | null | undefined | path => exact .refl _

/-- Evaluating an expression changes no local name. -/
theorem locals_evaluate (r : Run) (x : Expression) : (r.evaluate x).2.locals = r.locals := by
  cases x <;> rfl

/-- Evaluating the arguments of a call applies nothing and changes no local name. -/
theorem evaluateAll_intact (r : Run) (xs : List Expression) :
    r.engine.Intact (r.evaluateAll xs).2.engine ∧ (r.evaluateAll xs).2.locals = r.locals := by
  induction xs generalizing r with
  | nil => exact ⟨.refl _, rfl⟩
  | cons x xs ih =>
    have hintact := r.evaluate_intact x
    have hlocals := r.locals_evaluate x
    unfold evaluateAll
    rcases hx : r.evaluate x with ⟨f | v, r'⟩ <;> rw [hx] at hintact hlocals
    · exact ⟨hintact, hlocals⟩
    · have hall := ih r'
      simp only
      rcases hxs : r'.evaluateAll xs with ⟨f | vs, r''⟩ <;> rw [hxs] at hall
      · exact ⟨hintact.trans hall.1, hall.2.trans hlocals⟩
      · exact ⟨hintact.trans hall.1, hall.2.trans hlocals⟩

end Run

/-! ## The functions of an engine -/

namespace Engine

/-- Every host function of an engine has a property. -/
def AllNatives (e : Engine) (p : Native → Prop) : Prop :=
  ∀ name native, e.natives.get? name = some native → p native

variable {e e' : Engine} {p : Native → Prop}

/-- What holds of the functions of an engine holds of them in another that has the same. -/
theorem AllNatives.of_natives (h : e.AllNatives p) (hnatives : e'.natives = e.natives) :
    e'.AllNatives p := by
  intro name native hnative
  rw [hnatives] at hnative
  exact h name native hnative

/-- A function that has the property may be added, or take the place of another. -/
theorem AllNatives.register (h : e.AllNatives p) (name : String) {native : Native} (hp : p native) :
    (e.register name native).AllNatives p := by
  intro other found hfound
  simp only [Engine.register] at hfound
  rw [Table.get?_set] at hfound
  split at hfound
  · exact Option.some.inj hfound ▸ hp
  · exact h other found hfound

/-- The one function of an engine before any script is `log`. -/
theorem allNatives_initial (hlog : p .log) : initial.AllNatives p := by
  have hnone : AllNatives ⟨Heap.empty, Table.empty, Table.empty, [], []⟩ p := nofun
  exact hnone.register "log" hlog

end Engine

/-! ## Calls -/

/-- What host functions do leaves the functions as they are. -/
theorem Engine.natives_actAll (e : Engine) (effects : List Effect) :
    (e.actAll effects).natives = e.natives := by
  induction effects generalizing e with
  | nil => rfl
  | cons effect effects ih =>
    show ((e.act effect).actAll effects).natives = e.natives
    rw [ih]
    cases effect <;> rfl

namespace Run

/-- What the host function of a call does, nothing when the call does not come to one. -/
def callEffects (r : Run) (callee : String) (args : List Expression) : List Effect :=
  match r.engine.natives.get? callee with
  | none => []
  | some native =>
    match r.evaluateAll args with
    | (.error _, _) => []
    | (.ok values, r') => (native.call r'.engine.heap r'.engine.memory values).1

/-- A call evaluates its arguments, which applies nothing, and then its host function acts. -/
theorem call_acts (r : Run) (callee : String) (args : List Expression) :
    ∃ mid : Run, r.engine.Intact mid.engine ∧ mid.locals = r.locals ∧
      (r.call callee args).2 =
        { mid with engine := mid.engine.actAll (r.callEffects callee args) } := by
  unfold call callEffects
  cases r.engine.natives.get? callee with
  | none =>
    refine ⟨r, .refl _, rfl, ?_⟩
    simp only
    split <;> rfl
  | some native =>
    obtain ⟨hintact, hlocals⟩ := r.evaluateAll_intact args
    simp only
    rcases hes : r.evaluateAll args with ⟨f | values, mid⟩ <;> rw [hes] at hintact hlocals
    · exact ⟨mid, hintact, hlocals, rfl⟩
    · exact ⟨mid, hintact, hlocals, rfl⟩

/-- What a call does is what a function of the engine does to some heap, memory and arguments. -/
theorem exists_native_of_mem_callEffects {r : Run} {callee : String} {args : List Expression}
    {effect : Effect} (h : effect ∈ r.callEffects callee args) :
    ∃ native heap memory values, r.engine.natives.get? callee = some native ∧
      effect ∈ (native.call heap memory values).1 := by
  unfold callEffects at h
  split at h
  · cases h
  · rename_i native hnative
    split at h
    · cases h
    · exact ⟨native, _, _, _, hnative, h⟩

/-! ## Statements -/

/-- Assigning to a path leaves the functions and what they remember as they are. -/
theorem assign_keeps (r : Run) (target : Path) (value : Value) :
    (r.assign target value).2.engine.natives = r.engine.natives ∧
      (r.assign target value).2.engine.memory = r.engine.memory := by
  unfold assign
  split
  · unfold assignName
    split <;> exact ⟨rfl, rfl⟩
  · split <;> exact ⟨rfl, rfl⟩

/-- Declaring a path leaves the functions and what they remember as they are. -/
theorem declareRoot_keeps (r : Run) (path : String) :
    (r.declareRoot path).2.engine.natives = r.engine.natives ∧
      (r.declareRoot path).2.engine.memory = r.engine.memory := by
  unfold declareRoot
  simp only
  split <;> exact ⟨rfl, rfl⟩

/-- No statement changes the functions there are. -/
theorem natives_perform (r : Run) (action : Action) :
    (r.perform action).2.engine.natives = r.engine.natives := by
  generalize houtcome : r.perform action = outcome
  cases performs_of_eq houtcome with
  | varFails _ value hvalue | var _ value hvalue | assignFails _ value hvalue
  | throwFails value hvalue | throw value hvalue =>
    have hsame := (r.evaluate_intact value).natives
    rw [hvalue] at hsame
    exact hsame
  | declareFails path hdeclare | declare path hdeclare =>
    have hsame := (r.declareRoot_keeps path).1
    rw [hdeclare] at hsame
    exact hsame
  | @assignStops target value v _ r' _ hvalue hassign | @assign target value v r' _ hvalue hassign =>
    have hsame := (r.evaluate_intact value).natives
    rw [hvalue] at hsame
    have hnext := (r'.assign_keeps target v).1
    rw [hassign] at hnext
    exact hnext.trans hsame
  | call callee args hcall =>
    obtain ⟨mid, hintact, -, hmid⟩ := r.call_acts callee args
    rw [← hcall, hmid]
    exact (mid.engine.natives_actAll _).trans hintact.natives
  | expression value hvalue => exact hvalue ▸ (r.evaluate_intact value).natives

/-- No run of a program changes the functions there are. -/
theorem natives_statements (r : Run) (last : Value) (program : Program) :
    (statements r last program).2.engine.natives = r.engine.natives := by
  induction program generalizing r last with
  | nil => rfl
  | cons s rest ih =>
    have hfirst := r.natives_perform s.action
    unfold statements
    rcases hp : r.perform s.action with ⟨f | v, r'⟩ <;> rw [hp] at hfirst
    · exact hfirst
    · exact (ih r' v).trans hfirst

end Run

end ModuleLoader.Script
