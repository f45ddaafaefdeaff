import ModuleLoader.Script.Engine

/-!
# What a statement can do

A statement evaluates the expression it has, if any, and then makes its one change; either can fail.
The ways it can go are the cases of `Run.Performs`, and what every statement keeps is shown by them.
Main statement: `Run.performs`.
-/

set_option autoImplicit false

namespace ModuleLoader.Script

namespace Run

/-- How a statement may go, with what it comes to. -/
inductive Performs (r : Run) : Action → Except Fault Value × Run → Prop where
  | varFails (name : String) (init : Expression) {f : Fault} {r' : Run}
      (hvalue : r.evaluate init = (.error f, r')) : Performs r (.var name init) (.error f, r')
  | var (name : String) (init : Expression) {v : Value} {r' : Run}
      (hvalue : r.evaluate init = (.ok v, r')) :
      Performs r (.var name init) (.ok .undefined, { r' with locals := r'.locals.set name v })
  | declareFails (path : String) {f : Fault} {r' : Run}
      (hdeclare : r.declareRoot path = (.error f, r')) :
      Performs r (.declareRoot path) (.error f, r')
  | declare (path : String) {r' : Run} (hdeclare : r.declareRoot path = (.ok (), r')) :
      Performs r (.declareRoot path) (.ok .undefined, r')
  | assignFails (target : Path) (value : Expression) {f : Fault} {r' : Run}
      (hvalue : r.evaluate value = (.error f, r')) : Performs r (.assign target value) (.error f, r')
  | assignStops (target : Path) (value : Expression) {v : Value} {f : Fault} {r' r'' : Run}
      (hvalue : r.evaluate value = (.ok v, r')) (hassign : r'.assign target v = (.error f, r'')) :
      Performs r (.assign target value) (.error f, r'')
  | assign (target : Path) (value : Expression) {v : Value} {r' r'' : Run}
      (hvalue : r.evaluate value = (.ok v, r')) (hassign : r'.assign target v = (.ok (), r'')) :
      Performs r (.assign target value) (.ok v, r'')
  | throwFails (value : Expression) {f : Fault} {r' : Run}
      (hvalue : r.evaluate value = (.error f, r')) : Performs r (.throw value) (.error f, r')
  | throw (value : Expression) {v : Value} {r' : Run} (hvalue : r.evaluate value = (.ok v, r')) :
      Performs r (.throw value) (.error (.uncaught v), r')
  | call (callee : String) (args : List Expression) {outcome : Except Fault Value × Run}
      (hcall : r.call callee args = outcome) : Performs r (.call callee args) outcome
  | expression (value : Expression) {outcome : Except Fault Value × Run}
      (hvalue : r.evaluate value = outcome) : Performs r (.expression value) outcome

/-- What a statement does is one of the ways listed. -/
theorem performs (r : Run) (action : Action) : r.Performs action (r.perform action) := by
  cases action with
  | var name init =>
    rcases hvalue : r.evaluate init with ⟨f | v, r'⟩
    · simp only [perform, hvalue]
      exact .varFails name init hvalue
    · simp only [perform, hvalue]
      exact .var name init hvalue
  | declareRoot path =>
    rcases hdeclare : r.declareRoot path with ⟨f | u, r'⟩
    · simp only [perform, hdeclare]
      exact .declareFails path hdeclare
    · simp only [perform, hdeclare]
      exact .declare path hdeclare
  | assign target value =>
    rcases hvalue : r.evaluate value with ⟨f | v, r'⟩
    · simp only [perform, hvalue]
      exact .assignFails target value hvalue
    · rcases hassign : r'.assign target v with ⟨f | u, r''⟩
      · simp only [perform, hvalue, hassign]
        exact .assignStops target value hvalue hassign
      · simp only [perform, hvalue, hassign]
        exact .assign target value hvalue hassign
  | throw value =>
    rcases hvalue : r.evaluate value with ⟨f | v, r'⟩
    · simp only [perform, hvalue]
      exact .throwFails value hvalue
    · simp only [perform, hvalue]
      exact .throw value hvalue
  | call callee args => exact .call callee args rfl
  | expression value => exact .expression value rfl

/-- A statement comes to what one of the cases says. -/
theorem performs_of_eq {r : Run} {action : Action} {outcome : Except Fault Value × Run}
    (h : r.perform action = outcome) : r.Performs action outcome := h ▸ r.performs action

/-- A run that succeeds carries out its first statement. -/
theorem exists_of_statements_cons {r r' : Run} {last v : Value} {s : Statement} {rest : Program}
    (h : statements r last (s :: rest) = (.ok v, r')) :
    ∃ u mid, r.perform s.action = (.ok u, mid) ∧ statements mid u rest = (.ok v, r') := by
  unfold statements at h
  rcases hs : r.perform s.action with ⟨f | u, mid⟩
  · rw [hs] at h
    cases h
  · rw [hs] at h
    exact ⟨u, mid, rfl, h⟩

end Run

end ModuleLoader.Script
