import ModuleLoader.Proofs.Script.Acting

/-!
# What scripts write

A script changes the properties of an object only by assigning to a path that ends there, by
declaring a path that leads through it and by calling a host function that writes them.  The
properties written are listed beside what a statement does.  Main statement:
`Run.statements_written`, a script leaves all properties of the objects there were as they are but
for those written, and every property written is there afterwards.
-/

set_option autoImplicit false

namespace ModuleLoader.Script

/-! ## Heaps -/

namespace Heap

/-- An object that is not there has no properties. -/
theorem read_of_not_has {h : Heap} {o : ObjectId} (ho : ¬ h.Has o) (key : String) :
    h.read o key = none := by
  have hnone : h.objects[o.index]? = none := Array.getElem?_eq_none (Nat.le_of_not_lt ho)
  unfold read properties
  rw [hnone]
  rfl

/-- The object that is made next is not there yet. -/
theorem not_has_next (h : Heap) : ¬ h.Has h.next := Nat.lt_irrefl _

/-- A heap comes about from another by writing some properties and making objects. -/
structure Written (h : Heap) (written : List (ObjectId × String)) (h' : Heap) : Prop where
  kept : ∀ o, h.Has o → h'.Has o
  same : ∀ o key, h.Has o → (o, key) ∉ written → h'.read o key = h.read o key
  there : ∀ o key, h.Has o → (o, key) ∈ written → h'.read o key ≠ none

/-- Nothing is written when nothing happens. -/
theorem Written.refl (h : Heap) : h.Written [] h := ⟨fun _ ho => ho, fun _ _ _ _ => rfl, nofun⟩

/-- What is written in two stretches is written in both together. -/
theorem Written.trans {h h' h'' : Heap} {written more : List (ObjectId × String)}
    (hw : h.Written written h') (hnext : h'.Written more h'') : h.Written (written ++ more) h'' where
  kept o ho := hnext.kept o (hw.kept o ho)
  same o key ho hnot := by
    rw [List.mem_append, not_or] at hnot
    rw [hnext.same o key (hw.kept o ho) hnot.2, hw.same o key ho hnot.1]
  there o key ho hmem := by
    by_cases hmore : (o, key) ∈ more
    · exact hnext.there o key (hw.kept o ho) hmore
    · rw [hnext.same o key (hw.kept o ho) hmore]
      exact hw.there o key ho ((List.mem_append.1 hmem).resolve_right hmore)

/-- What was there stays there, whether it is written or not. -/
theorem Written.read_ne_none_iff {h h' : Heap} {written : List (ObjectId × String)}
    (hw : h.Written written h') {o : ObjectId} (ho : h.Has o) (key : String) :
    h'.read o key ≠ none ↔ h.read o key ≠ none ∨ (o, key) ∈ written := by
  by_cases hmem : (o, key) ∈ written
  · exact iff_of_true (hw.there o key ho hmem) (.inr hmem)
  · rw [hw.same o key ho hmem]
    exact (or_iff_left hmem).symm

/-- Making an object writes nothing. -/
theorem written_alloc (h : Heap) : h.Written [] h.alloc where
  kept o ho := (h.has_alloc o).2 (.inl ho)
  same o key _ _ := h.read_alloc o key
  there := nofun

/-- A write writes its property. -/
theorem written_write (h : Heap) (o : ObjectId) (key : String) (value : Value) :
    h.Written [(o, key)] (h.write o key value) where
  kept other ho := (h.has_write o other key value).2 ho
  same other k ho hnot := by
    by_cases he : other = o
    · rw [he] at ho hnot
      rw [he, h.read_write key value ho, if_neg fun hk => hnot (by simp [hk.2])]
    · simp only [read, h.properties_write_of_ne key value he]
  there other k ho hmem := by
    obtain ⟨rfl, rfl⟩ := Prod.mk.inj (List.mem_singleton.1 hmem)
    rw [h.read_write _ value ho, if_pos ⟨rfl, rfl⟩]
    exact Option.some_ne_none value

/-- The property that is written when a child is looked up and was missing. -/
def missing (h : Heap) (o : ObjectId) (key : String) : List (ObjectId × String) :=
  match h.read o key with
  | some _ => []
  | none => [(o, key)]

/-- An object that is made for a property that is missing is written there. -/
theorem written_child (h : Heap) (o : ObjectId) (key : String) :
    h.Written (h.missing o key) (h.child o key).2 := by
  unfold missing child
  cases h.read o key with
  | none => exact h.written_alloc.trans (h.alloc.written_write o key _)
  | some value =>
    cases value with
    | object c => exact .refl h
    | undefined | null | boolean | number | string => exact .refl h

/-- A property that blocks the way to a child has had nothing made for it. -/
theorem eq_of_child_none {h h' : Heap} {o : ObjectId} {key : String}
    (hchild : h.child o key = (none, h')) : h' = h := by
  unfold child at hchild
  split at hchild <;> cases hchild
  rfl

end Heap

/-! ## Host functions -/

/-- An engine that is left intact has had nothing written. -/
theorem Engine.Intact.written {e e' : Engine} (h : e.Intact e') : e.heap.Written [] e'.heap where
  kept := h.kept
  same o key _ _ := congrArg (fun p => p.get? key) (h.objects o)
  there := nofun

/-- The properties that something a host function does writes. -/
def Effect.writes : Effect → List (ObjectId × String)
  | .write target key _ => [(target, key)]
  | .print _ | .alloc | .define _ _ | .remember _ => []

/-- One thing that a host function does writes what it says. -/
theorem Engine.act_written (e : Engine) (effect : Effect) :
    e.heap.Written effect.writes (e.act effect).heap := by
  cases effect with
  | write target key value => exact e.heap.written_write target key value
  | alloc => exact e.heap.written_alloc
  | print | define | remember => exact .refl _

/-- What host functions do writes what the parts of it write. -/
theorem Engine.actAll_written (e : Engine) (effects : List Effect) :
    e.heap.Written (effects.flatMap Effect.writes) (e.actAll effects).heap := by
  induction effects generalizing e with
  | nil => exact .refl _
  | cons effect effects ih => exact (e.act_written effect).trans (ih (e.act effect))

/-! ## Statements -/

namespace Run

/-- The properties written along a declared path: those that were missing. -/
def declaredFrom : Heap → ObjectId → List String → List (ObjectId × String)
  | _, _, [] => []
  | h, o, key :: keys =>
    match h.child o key with
    | (some c, h') => h.missing o key ++ declaredFrom h' c keys
    | (none, _) => []

/-- The property written by an assignment to a path, if the path ends in one. -/
def assigned (r : Run) (target : Path) : List (ObjectId × String) :=
  match target.properties.getLast? with
  | none => []
  | some last =>
    match r.readPath ⟨target.head, target.properties.dropLast⟩ with
    | .ok (.object o) => [(o, last)]
    | _ => []

/-- The properties that a statement writes. -/
def writes (r : Run) : Action → List (ObjectId × String)
  | .assign target value =>
    match r.evaluate value with
    | (.error _, _) => []
    | (.ok _, r') => r'.assigned target
  | .declareRoot path =>
    match r.lookup ((Text.splitOnChar '.' path).headD "") with
    | some (.object o) => declaredFrom r.engine.heap o (Text.splitOnChar '.' path).tail
    | _ => []
  | .call callee args => (r.callEffects callee args).flatMap Effect.writes
  | .var _ _ | .throw _ | .expression _ => []

/-- The properties that the statements of a program write, up to the first that fails. -/
def statementsWrites (r : Run) : Program → List (ObjectId × String)
  | [] => []
  | s :: rest =>
    match r.perform s.action with
    | (.error _, _) => r.writes s.action
    | (.ok _, r') => r.writes s.action ++ r'.statementsWrites rest

/-- Declaring names writes the properties that are missing along them. -/
theorem declareFrom_written (path : String) (h : Heap) (o : ObjectId) (keys : List String) :
    h.Written (declaredFrom h o keys) (declareFrom path h o keys).2 := by
  induction keys generalizing h o with
  | nil => exact .refl h
  | cons key keys ih =>
    have hchild := h.written_child o key
    unfold declareFrom declaredFrom
    rcases hc : h.child o key with ⟨c | c, h'⟩
    · rw [Heap.eq_of_child_none hc]
      exact .refl h
    · rw [hc] at hchild
      exact hchild.trans (ih h' c)

/-- Evaluating an expression writes nothing. -/
theorem evaluate_written (r : Run) (e : Expression) :
    r.engine.heap.Written [] (r.evaluate e).2.engine.heap := (r.evaluate_intact e).written

/-- A call writes what its host function does. -/
theorem call_written (r : Run) (callee : String) (args : List Expression) :
    r.engine.heap.Written (r.writes (.call callee args)) (r.call callee args).2.engine.heap := by
  obtain ⟨mid, hintact, -, hmid⟩ := r.call_acts callee args
  rw [hmid]
  exact hintact.written.trans (mid.engine.actAll_written _)

/-- An assignment writes the property it is to, if it is to one. -/
theorem assign_written (r : Run) (target : Path) (value : Value) :
    r.engine.heap.Written (r.assigned target) (r.assign target value).2.engine.heap := by
  unfold assigned assign
  cases target.properties.getLast? with
  | none =>
    simp only [assignName]
    split <;> exact .refl _
  | some last =>
    simp only
    cases r.readPath ⟨target.head, target.properties.dropLast⟩ with
    | error f => exact .refl _
    | ok v =>
      cases v with
      | object o => exact r.engine.heap.written_write o last value
      | undefined | null | boolean | number | string => exact .refl _

/-- A declaration writes the properties that are missing along its path. -/
theorem declareRoot_written (r : Run) (path : String) :
    r.engine.heap.Written (r.writes (.declareRoot path)) (r.declareRoot path).2.engine.heap := by
  unfold writes declareRoot
  simp only
  cases r.lookup ((Text.splitOnChar '.' path).headD "") with
  | none => exact .refl _
  | some v =>
    cases v with
    | object o => exact declareFrom_written path r.engine.heap o _
    | undefined | null | boolean | number | string => exact .refl _

/-- A statement changes what it writes, and nothing else of the objects there are. -/
theorem perform_written (r : Run) (action : Action) :
    r.engine.heap.Written (r.writes action) (r.perform action).2.engine.heap := by
  generalize houtcome : r.perform action = outcome
  cases performs_of_eq houtcome with
  | varFails _ value hvalue | var _ value hvalue | throwFails value hvalue | throw value hvalue =>
    have hwritten := r.evaluate_written value
    rw [hvalue] at hwritten
    exact hwritten
  | declareFails path hdeclare | declare path hdeclare =>
    have hwritten := r.declareRoot_written path
    rw [hdeclare] at hwritten
    exact hwritten
  | assignFails target value hvalue =>
    have hwritten := r.evaluate_written value
    rw [hvalue] at hwritten
    simpa only [writes, hvalue] using hwritten
  | @assignStops target value v _ r' _ hvalue hassign | @assign target value v r' _ hvalue hassign =>
    have hwritten := r.evaluate_written value
    rw [hvalue] at hwritten
    have hnext := r'.assign_written target v
    rw [hassign] at hnext
    simpa only [writes, hvalue, List.nil_append] using hwritten.trans hnext
  | call callee args hcall => exact hcall ▸ r.call_written callee args
  | expression value hvalue => exact hvalue ▸ r.evaluate_written value

/-- A script changes what its statements write, and nothing else of the objects there are. -/
theorem statements_written (r : Run) (last : Value) (program : Program) :
    r.engine.heap.Written (r.statementsWrites program)
      (Run.statements r last program).2.engine.heap := by
  induction program generalizing r last with
  | nil => exact .refl _
  | cons s rest ih =>
    have hfirst := r.perform_written s.action
    unfold Run.statements statementsWrites
    rcases hp : r.perform s.action with ⟨f | v, r'⟩
    · rw [hp] at hfirst
      exact hfirst
    · rw [hp] at hfirst
      exact hfirst.trans (ih r' v)

end Run

end ModuleLoader.Script
