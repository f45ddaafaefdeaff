import ModuleLoader.Proofs.Script.Running
import ModuleLoader.Proofs.Script.Writes

/-!
# Where a failing script stops

A statement that fails has applied nothing.  It may have made objects for its expressions, which
nothing refers to; but an assignment finds out that it cannot be carried out before it writes, and a
root declaration before it makes an object, because under an object that it has made it meets no
plain value.  Main statements: `declareFrom_of_own`, on which the latter rests, and
`Engine.evaluate_stops`, a script that fails leaves what the statements before the failing one left.
-/

set_option autoImplicit false

namespace ModuleLoader.Script

/-! ## Host functions that fail -/

/-- A host function that has done nothing when it fails. -/
def Native.Steady (native : Native) : Prop :=
  ∀ heap memory args fault, (native.call heap memory args).2 = .error fault →
    (native.call heap memory args).1 = []

/-- Writing a line does not fail. -/
theorem Native.steady_log : Native.log.Steady := nofun

/-- A function that only answers does nothing. -/
theorem Native.steady_host (answer : List Value → Except Fault Value) : (Native.host answer).Steady :=
  fun _ _ _ _ _ => rfl

namespace Run

/-! ## Root declarations -/

/-- Below an object whose only properties lead back to it, no path to declare is blocked: the first
property that is missing gets a fresh object, which is such an object again. -/
theorem declareFrom_of_own (path : String) {h : Heap} {o : ObjectId} (ho : h.Has o)
    (hown : ∀ key v, h.read o key = some v → v = .object o) (keys : List String) :
    (declareFrom path h o keys).1 = .ok () := by
  induction keys generalizing h o with
  | nil => rfl
  | cons key keys ih =>
    unfold declareFrom Heap.child
    rcases hread : h.read o key with _ | v
    · have hfresh : ¬ h.Has h.next := h.not_has_next
      have halloc : h.alloc.Has o := (h.has_alloc o).2 (.inl ho)
      apply ih
      · rw [Heap.has_write, Heap.has_alloc]
        exact .inr rfl
      · intro k v hv
        -- The fresh object is not the one that was written to, so it is empty.
        rw [Heap.read_write _ _ _ halloc, if_neg, Heap.read_alloc, Heap.read_of_not_has hfresh] at hv
        · cases hv
        · rintro ⟨he, -⟩
          exact hfresh (he ▸ ho)
    · rw [hown key v hread]
      exact ih ho hown

/-- A declaration that is blocked is so before it has made an object. -/
theorem heap_of_declareFrom_error {path : String} {h h' : Heap} {o : ObjectId} {keys : List String}
    {f : Fault} (hd : declareFrom path h o keys = (.error f, h')) : h' = h := by
  induction keys generalizing h o with
  | nil => cases hd
  | cons key keys ih =>
    unfold declareFrom Heap.child at hd
    rcases hread : h.read o key with _ | v
    · -- From the object made for the missing property on nothing blocks the path.
      exfalso
      rw [hread] at hd
      have hhas : (h.alloc.write o key (.object h.next)).Has h.next := by
        rw [Heap.has_write, Heap.has_alloc]
        exact .inr rfl
      have hown : ∀ k v, (h.alloc.write o key (.object h.next)).read h.next k = some v →
          v = .object h.next := by
        intro k v hv
        by_cases he : h.next = o
        · rw [Heap.read_write _ _ _ (he ▸ (h.has_alloc _).2 (.inr rfl)), Heap.read_alloc,
            Heap.read_of_not_has h.not_has_next] at hv
          split at hv
          · exact (Option.some.inj hv).symm
          · cases hv
        · have hnone : h.read h.next k = none := Heap.read_of_not_has h.not_has_next k
          rw [Heap.read, Heap.properties_write_of_ne _ _ _ he, Heap.properties_alloc] at hv
          exact absurd (hnone.symm.trans hv) (by simp)
      have hok := declareFrom_of_own path hhas hown keys
      rw [congrArg Prod.fst hd] at hok
      cases hok
    · rw [hread] at hd
      cases v with
      | object c => exact ih hd
      | undefined | null | boolean | number | string =>
        cases hd
        rfl

/-- A declaration that fails changes nothing. -/
theorem eq_of_declareRoot_error {r r' : Run} {path : String} {f : Fault}
    (h : r.declareRoot path = (.error f, r')) : r' = r := by
  unfold declareRoot at h
  simp only at h
  split at h
  · cases h
    rfl
  · rename_i o _
    rcases hd : declareFrom path r.engine.heap o (Text.splitOnChar '.' path).tail with ⟨result, heap⟩
    rw [hd] at h
    cases h
    rw [heap_of_declareFrom_error hd]
  · cases h
    rfl

/-! ## The other statements -/

/-- An assignment that fails changes nothing. -/
theorem eq_of_assign_error {r r' : Run} {target : Path} {value : Value} {f : Fault}
    (h : r.assign target value = (.error f, r')) : r' = r := by
  unfold assign at h
  split at h
  · cases h
  · split at h <;> cases h <;> rfl

/-- A call that fails has applied nothing. -/
theorem call_intact_of_error {r r' : Run} (hsteady : r.engine.AllNatives Native.Steady) {callee : String}
    {args : List Expression} {f : Fault} (h : r.call callee args = (.error f, r')) :
    r.engine.Intact r'.engine := by
  unfold call at h
  split at h
  · split at h <;> cases h <;> exact .refl _
  · rename_i native hnative
    have hargs := (r.evaluateAll_intact args).1
    rcases he : r.evaluateAll args with ⟨g | values, r''⟩ <;> rw [he] at h hargs
    · cases h
      exact hargs
    · simp only [apply, Prod.mk.injEq] at h
      obtain ⟨hanswer, rfl⟩ := h
      rw [hsteady callee native hnative _ _ _ f hanswer]
      exact hargs

/-- A statement that fails has applied nothing. -/
theorem perform_intact_of_error {r r' : Run} (hsteady : r.engine.AllNatives Native.Steady)
    {action : Action} {f : Fault} (h : r.perform action = (.error f, r')) : r.engine.Intact r'.engine := by
  cases performs_of_eq h with
  | varFails _ value hvalue | assignFails _ value hvalue | throwFails value hvalue
  | throw value hvalue | expression value hvalue =>
    have hintact := r.evaluate_intact value
    rw [hvalue] at hintact
    exact hintact
  | declareFails path hdeclare =>
    rw [eq_of_declareRoot_error hdeclare]
    exact .refl _
  | assignStops target value hvalue hassign =>
    have hintact := r.evaluate_intact value
    rw [hvalue] at hintact
    rw [eq_of_assign_error hassign]
    exact hintact
  | call callee args hcall => exact call_intact_of_error hsteady hcall

/-! ## Scripts -/

/-- A run that fails has run the statements up to one that fails. -/
theorem exists_of_statements_error {r r' : Run} {last : Value} {program : Program}
    {err : ScriptError} (h : Run.statements r last program = (.error err, r')) :
    ∃ before s after v mid f, program = before ++ s :: after ∧
      Run.statements r last before = (.ok v, mid) ∧ mid.perform s.action = (.error f, r') ∧
      err = f.at s.span.place := by
  induction program generalizing r last with
  | nil => cases h
  | cons s rest ih =>
    unfold Run.statements at h
    rcases hp : r.perform s.action with ⟨f | v, r''⟩
    · rw [hp] at h
      cases h
      exact ⟨[], s, rest, last, r, f, rfl, rfl, hp, rfl⟩
    · rw [hp] at h
      obtain ⟨before, t, after, w, mid, f, rfl, hbefore, hperform, herr⟩ := ih h
      refine ⟨s :: before, t, after, w, mid, f, rfl, ?_, hperform, herr⟩
      unfold Run.statements
      rw [hp]
      exact hbefore

end Run

/-- On an engine whose host functions do nothing when they fail, as `log` and the functions that are
bound to fail do, a script that fails could not be read, and has done nothing; or it has run its
statements up to one that fails, is reported where that begins, and leaves what the statements before
it left: nothing of the statement itself was applied. -/
theorem Engine.evaluate_stops {e e' : Engine} (hsteady : e.AllNatives Native.Steady) {source : String}
    {bindings : Table Value} {err : ScriptError}
    (h : e.evaluate source bindings = (.error err, e')) :
    (∃ cause : SyntaxError, parseProgram source = .error cause ∧ err = cause.toScriptError ∧
      e' = e) ∨
      ∃ before s after, parseProgram source = .ok (before ++ s :: after) ∧
        ∃ v r fault, Run.statements ⟨e, bindings⟩ .undefined before = (.ok v, r) ∧
          (r.perform s.action).1 = .error fault ∧ err = fault.at s.span.place ∧
          r.engine.Intact e' := by
  cases hparse : parseProgram source with
  | error cause =>
    rw [evaluate_of_error hparse] at h
    cases h
    exact .inl ⟨cause, rfl, rfl, rfl⟩
  | ok program =>
    right
    rw [evaluate_of_ok hparse] at h
    rcases hrun : Run.statements ⟨e, bindings⟩ .undefined program with ⟨result, last⟩
    rw [hrun] at h
    cases h
    obtain ⟨before, s, after, v, r, fault, rfl, hbefore, hperform, herr⟩ :=
      Run.exists_of_statements_error hrun
    have hnatives := Run.natives_statements ⟨e, bindings⟩ .undefined before
    rw [hbefore] at hnatives
    refine ⟨before, s, after, rfl, v, r, fault, hbefore, ?_, herr,
      Run.perform_intact_of_error (hsteady.of_natives hnatives) hperform⟩
    rw [hperform]

/-- A declaration that meets a number on its way through an object that holds itself, on an engine
without timers: the statements before it have run, and what they left is what the script leaves. -/
theorem Engine.evaluate_stops_blocked :
    let e := initial.bindUnsupported "setTimeout" "timers are not supported"
    let source := "a = {}\na.a = a\na.n = 1\nlog('up')\ndeclare-root('a.a.n.x')\nlog('down')"
    let e' := (e.evaluate source Table.empty).2
    e.AllNatives Native.Steady ∧
      e.evaluate source Table.empty = (.error ⟨.rootBlocked "a.a.n.x" "n", 5, 1⟩, e') ∧
      e'.output = ["up"] ∧ ∃ before s after v r,
        parseProgram source = .ok (before ++ s :: after) ∧
        Run.statements ⟨e, Table.empty⟩ .undefined before = (.ok v, r) ∧
        (r.perform s.action).1 = .error (.rootBlocked "a.a.n.x" "n") ∧ r.engine.Intact e' := by
  intro e source e'
  have herror : (e.evaluate source Table.empty).1 =
      .error ⟨.rootBlocked "a.a.n.x" "n", 5, 1⟩ := by decide +kernel +revert
  have houtput : e'.output = ["up"] := by decide +kernel +revert
  have hruns : e.evaluate source Table.empty =
      (.error ⟨.rootBlocked "a.a.n.x" "n", 5, 1⟩, e') := Prod.ext herror rfl
  have hsteady : e.AllNatives Native.Steady :=
    (allNatives_initial Native.steady_log).register _ (Native.steady_host _)
  refine ⟨hsteady, hruns, houtput, ?_⟩
  rcases Engine.evaluate_stops hsteady hruns with
    ⟨cause, -, hcause, -⟩ | ⟨before, s, after, hparse, v, r, fault, hbefore, hfault, herr, hintact⟩
  · cases hcause
  · obtain rfl : Fault.rootBlocked "a.a.n.x" "n" = fault := congrArg ScriptError.fault herr
    exact ⟨before, s, after, v, r, hparse, hbefore, hfault, hintact⟩

end ModuleLoader.Script
