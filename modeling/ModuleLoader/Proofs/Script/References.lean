import ModuleLoader.Proofs.Script.Failing

/-!
# References lead to objects

A script gets at an object by making it, by a name or a property that refers to it, or from a host
function.  What refers to an object that is there goes on doing so, because objects are never taken
away.  Main statement:
`Engine.sound_evaluate`, no script brings about a reference to an object that is not there.
-/

set_option autoImplicit false

namespace ModuleLoader.Script

/-! ## Heaps -/

namespace Heap

/-- A value is plain, or refers to an object of the heap. -/
def Holds (h : Heap) (v : Value) : Prop := ∀ o, v = .object o → h.Has o

/-- The properties of a heap refer to its objects only. -/
def Closed (h : Heap) : Prop := ∀ o key v, h.read o key = some v → h.Holds v

/-- A value refers to an object that is kept. -/
theorem Holds.kept {h h' : Heap} {v : Value} (hv : h.Holds v) (hkept : ∀ o, h.Has o → h'.Has o) :
    h'.Holds v := fun o he => hkept o (hv o he)

/-- An object that is there may be referred to. -/
theorem holds_object {h : Heap} {o : ObjectId} (ho : h.Has o) : h.Holds (.object o) := by
  rintro _ ⟨⟩
  exact ho

/-- A plain value refers to nothing. -/
theorem holds_plain (h : Heap) {v : Value} (hv : v.object? = none) : h.Holds v := by
  rintro o rfl
  cases hv

/-- The empty heap refers to nothing. -/
theorem closed_empty : Heap.empty.Closed := by
  intro o key v hv
  cases (read_of_not_has (Nat.not_lt_zero _) key).symm.trans hv

/-- A new object refers to nothing. -/
theorem Closed.alloc {h : Heap} (hc : h.Closed) : h.alloc.Closed := by
  intro o key v hv
  rw [read_alloc] at hv
  exact (hc o key v hv).kept h.written_alloc.kept

/-- A property may be written that refers to an object of the heap. -/
theorem Closed.write {h : Heap} (hc : h.Closed) {o : ObjectId} (ho : h.Has o) (key : String)
    {value : Value} (hvalue : h.Holds value) : (h.write o key value).Closed := by
  intro other k v hv
  have hkept := (h.written_write o key value).kept
  rw [read_write _ _ _ ho] at hv
  split at hv
  · cases hv
    exact hvalue.kept hkept
  · exact (hc other k v hv).kept hkept

/-- The object in a property is there, whether it has been made or found. -/
theorem Closed.child {h h' : Heap} (hc : h.Closed) {o c : ObjectId} (ho : h.Has o) {key : String}
    (hchild : h.child o key = (some c, h')) : h'.Closed ∧ h'.Has c := by
  unfold Heap.child at hchild
  split at hchild
  · rename_i hread
    cases hchild
    exact ⟨hc, hc o key _ hread c rfl⟩
  · cases hchild
  · cases hchild
    have hnext : h.alloc.Has h.next := (h.has_alloc _).2 (.inr rfl)
    exact ⟨hc.alloc.write ((h.has_alloc o).2 (.inl ho)) key (holds_object hnext),
      (has_write _ _ _ _ _).2 hnext⟩

end Heap

/-! ## Engines and runs -/

/-- The objects and the globals of an engine refer to objects that are there. -/
structure Engine.Closed (e : Engine) : Prop where
  objects : e.heap.Closed
  globals : ∀ name v, e.globals.get? name = some v → e.heap.Holds v

/-- So do the names of a run. -/
structure Run.Closed (r : Run) : Prop where
  engine : r.engine.Closed
  locals : ∀ name v, r.locals.get? name = some v → r.engine.heap.Holds v

/-- A new heap that is closed and keeps the objects may take the place of the old one. -/
theorem Engine.Closed.onHeap {e : Engine} (hc : e.Closed) {h' : Heap} (hclosed : h'.Closed)
    (hkept : ∀ o, e.heap.Has o → h'.Has o) : Engine.Closed { e with heap := h' } where
  objects := hclosed
  globals name v hv := (hc.globals name v hv).kept hkept

/-- A global may be given a value that refers to nothing that is missing. -/
theorem Engine.Closed.onGlobals {e : Engine} (hc : e.Closed) (name : String) {value : Value}
    (hvalue : e.heap.Holds value) : (e.defineGlobal name value).Closed where
  objects := hc.objects
  globals other v hv := by
    simp only [Engine.defineGlobal] at hv
    rw [Table.get?_set] at hv
    split at hv
    · cases hv
      exact hvalue
    · exact hc.globals other v hv

namespace Run

/-- A run with other objects. -/
def onHeap (r : Run) (h : Heap) : Run := { r with engine := { r.engine with heap := h } }

/-- A run may go on with a heap that keeps its objects. -/
theorem Closed.onHeap {r : Run} (hc : r.Closed) {h' : Heap} (hclosed : h'.Closed)
    (hkept : ∀ o, r.engine.heap.Has o → h'.Has o) : (r.onHeap h').Closed where
  engine := hc.engine.onHeap hclosed hkept
  locals name v hv := (hc.locals name v hv).kept hkept

/-- A local name may be bound to a value that the heap holds. -/
theorem Closed.onLocals {r : Run} (hc : r.Closed) (name : String) {value : Value}
    (hvalue : r.engine.heap.Holds value) :
    Closed { r with locals := r.locals.set name value } where
  engine := hc.engine
  locals other v hv := by
    rw [Table.get?_set] at hv
    split at hv
    · cases hv
      exact hvalue
    · exact hc.locals other v hv

/-- A global may be defined by a value that the heap holds. -/
theorem Closed.onGlobals {r : Run} (hc : r.Closed) (name : String) {value : Value}
    (hvalue : r.engine.heap.Holds value) :
    Closed { r with engine := r.engine.defineGlobal name value } :=
  ⟨hc.engine.onGlobals name hvalue, hc.locals⟩

/-- A name refers to an object of the heap. -/
theorem Closed.lookup {r : Run} (hc : r.Closed) {name : String} {v : Value}
    (h : r.lookup name = some v) : r.engine.heap.Holds v := by
  unfold Run.lookup at h
  split at h
  · rename_i hlocal
    cases h
    exact hc.locals name _ hlocal
  · exact hc.engine.globals name v h

/-! ## Statements -/

/-- Walking along properties leads to objects of the heap. -/
theorem holds_of_walk {h : Heap} (hc : h.Closed) {v w : Value} {keys : List String}
    (hv : h.Holds v) (hwalk : walk h v keys = .ok w) : h.Holds w := by
  induction keys generalizing v with
  | nil =>
    cases v <;> cases hwalk <;> exact hv
  | cons key keys ih =>
    cases v with
    | object o =>
      refine ih ?_ hwalk
      cases hread : h.read o key with
      | none => exact h.holds_plain rfl
      | some next => exact hc o key next hread
    | undefined | null | boolean | number | string => cases hwalk

/-- A path leads to an object of the heap. -/
theorem Closed.readPath {r : Run} (hc : r.Closed) {p : Path} {v : Value}
    (h : r.readPath p = .ok v) : r.engine.heap.Holds v := by
  unfold Run.readPath at h
  split at h
  · cases h
  · rename_i hlookup
    exact holds_of_walk hc.engine.objects (hc.lookup hlookup) h

/-- The value of an expression refers to an object of the heap, if to any. -/
theorem Closed.evaluate {r : Run} (hc : r.Closed) (x : Expression) : (r.evaluate x).2.Closed ∧
    ∀ v, (r.evaluate x).1 = .ok v → (r.evaluate x).2.engine.heap.Holds v := by
  cases x with
  | emptyObject =>
    refine ⟨hc.onHeap hc.engine.objects.alloc r.engine.heap.written_alloc.kept, ?_⟩
    rintro _ ⟨⟩
    exact Heap.holds_object ((r.engine.heap.has_alloc _).2 (.inr rfl))
  | path p => exact ⟨hc, fun v hv => hc.readPath hv⟩
  | number | string | boolean | null | undefined =>
    refine ⟨hc, ?_⟩
    rintro _ ⟨⟩
    exact Heap.holds_plain _ rfl

/-- So do the values of several expressions. -/
theorem Closed.evaluateAll {r : Run} (hc : r.Closed) (xs : List Expression) :
    (r.evaluateAll xs).2.Closed ∧ ∀ vs, (r.evaluateAll xs).1 = .ok vs →
      ∀ v ∈ vs, (r.evaluateAll xs).2.engine.heap.Holds v := by
  induction xs generalizing r with
  | nil =>
    refine ⟨hc, ?_⟩
    rintro _ ⟨⟩
    exact List.forall_mem_nil _
  | cons x xs ih =>
    have hfirst := hc.evaluate x
    unfold Run.evaluateAll
    rcases hx : r.evaluate x with ⟨f | v, r'⟩ <;> rw [hx] at hfirst
    · refine ⟨hfirst.1, ?_⟩
      rintro _ ⟨⟩
    · have hall := ih hfirst.1
      have hkept := (r'.evaluateAll_intact xs).1.kept
      simp only
      rcases hxs : r'.evaluateAll xs with ⟨f | vs, r''⟩ <;> rw [hxs] at hall hkept
      · refine ⟨hall.1, ?_⟩
        rintro _ ⟨⟩
      · refine ⟨hall.1, ?_⟩
        rintro _ ⟨⟩
        exact List.forall_mem_cons.2 ⟨(hfirst.2 v rfl).kept hkept, hall.2 vs rfl⟩

/-- Assigning a value that the heap holds keeps the run closed. -/
theorem Closed.assign {r : Run} (hc : r.Closed) (target : Path) {value : Value}
    (hvalue : r.engine.heap.Holds value) : (r.assign target value).2.Closed := by
  unfold Run.assign
  split
  · unfold assignName
    split
    · exact hc.onLocals _ hvalue
    · exact hc.onGlobals _ hvalue
  · split
    · exact hc
    · rename_i last _ _ o hread
      exact hc.onHeap (hc.engine.objects.write (hc.readPath hread o rfl) last hvalue)
        (r.engine.heap.written_write o last value).kept
    · exact hc

/-- Declaring names keeps the heap closed. -/
theorem closed_declareFrom (path : String) {h : Heap} (hc : h.Closed) {o : ObjectId} (ho : h.Has o)
    (keys : List String) : (declareFrom path h o keys).2.Closed := by
  induction keys generalizing h o with
  | nil => exact hc
  | cons key keys ih =>
    unfold declareFrom
    rcases hchild : h.child o key with ⟨c | c, h'⟩
    · rw [Heap.eq_of_child_none hchild]
      exact hc
    · obtain ⟨hc', ho'⟩ := hc.child ho hchild
      exact ih hc' ho'

/-- Declaring a path keeps the run closed. -/
theorem Closed.declareRoot {r : Run} (hc : r.Closed) (path : String) :
    (r.declareRoot path).2.Closed := by
  unfold Run.declareRoot
  simp only
  split
  · exact hc
  · rename_i o hlookup
    exact hc.onHeap (closed_declareFrom path hc.engine.objects (hc.lookup hlookup o rfl) _)
      (declareFrom_written path _ o _).kept
  · exact hc

end Run

/-! ## Host functions -/

/-- Some things that a host function does on a heap, and its answer, mention only objects that are
there by then. -/
def Heap.Heeds : Heap → List Effect → Except Fault Value → Prop
  | h, [], answer => ∀ v, answer = .ok v → h.Holds v
  | h, .print _ :: rest, answer => h.Heeds rest answer
  | h, .alloc :: rest, answer => h.alloc.Heeds rest answer
  | h, .write target key value :: rest, answer =>
    h.Has target ∧ h.Holds value ∧ (h.write target key value).Heeds rest answer
  | h, .define _ value :: rest, answer => h.Holds value ∧ h.Heeds rest answer
  | h, .remember values :: rest, answer => (∀ v ∈ values, h.Holds v) ∧ h.Heeds rest answer

/-- A host function that holds objects of a heap, and otherwise gets at objects by its arguments, by
what it remembers and by making them. -/
def Native.Heeds (held : Heap) (native : Native) : Prop :=
  ∀ (h : Heap) memory args, (∀ o, held.Has o → h.Has o) → h.Closed → (∀ v ∈ memory, h.Holds v) →
    (∀ v ∈ args, h.Holds v) → h.Heeds (native.call h memory args).1 (native.call h memory args).2

/-- Writing a line mentions no object. -/
theorem Native.heeds_log (held : Heap) : Native.log.Heeds held := by
  rintro h memory args - - - - _ ⟨⟩
  exact h.holds_plain rfl

/-- A function that holds objects of a heap holds them when there are more. -/
theorem Native.Heeds.kept {held held' : Heap} {native : Native} (h : native.Heeds held)
    (hkept : ∀ o, held.Has o → held'.Has o) : native.Heeds held' :=
  fun heap memory args hthere => h heap memory args fun o ho => hthere o (hkept o ho)

/-- Everything an engine keeps refers to objects that are there, and its host functions know no
others. -/
structure Engine.Sound (e : Engine) : Prop where
  closed : e.Closed
  memory : ∀ v ∈ e.memory, e.heap.Holds v
  natives : e.AllNatives (Native.Heeds e.heap)

/-- An engine before any script refers to nothing. -/
theorem Engine.sound_initial : Engine.initial.Sound where
  closed := ⟨Heap.closed_empty, nofun⟩
  memory := nofun
  natives := allNatives_initial (Native.heeds_log _)

/-- A closed engine with the functions and the memory of a sound one, and with its objects, is
sound. -/
theorem Engine.Sound.of_closed {e e' : Engine} (h : e.Sound) (hc : e'.Closed)
    (hkept : ∀ o, e.heap.Has o → e'.heap.Has o) (hnatives : e'.natives = e.natives)
    (hmemory : e'.memory = e.memory) : e'.Sound where
  closed := hc
  memory v hv := (h.memory v (hmemory ▸ hv)).kept hkept
  natives name native hnative :=
    (h.natives.of_natives hnatives name native hnative).kept hkept

/-- What a host function does that heeds the objects there are leaves a sound engine, with all
objects, that holds the answer. -/
theorem Engine.Sound.actAll {e : Engine} (h : e.Sound) {effects : List Effect}
    {answer : Except Fault Value} (heeds : e.heap.Heeds effects answer) :
    (e.actAll effects).Sound ∧ (∀ o, e.heap.Has o → (e.actAll effects).heap.Has o) ∧
      ∀ v, answer = .ok v → (e.actAll effects).heap.Holds v := by
  induction effects generalizing e with
  | nil => exact ⟨h, fun _ ho => ho, heeds⟩
  | cons effect effects ih =>
    have hkept := (e.act_written effect).kept
    obtain ⟨hfirst, hrest⟩ : (e.act effect).Sound ∧ (e.act effect).heap.Heeds effects answer := by
      cases effect with
      | print line => exact ⟨⟨⟨h.closed.objects, h.closed.globals⟩, h.memory, h.natives⟩, heeds⟩
      | alloc =>
        exact ⟨h.of_closed (h.closed.onHeap h.closed.objects.alloc hkept) hkept rfl rfl, heeds⟩
      | write target key value =>
        obtain ⟨htarget, hvalue, hrest⟩ := heeds
        have hobjects := h.closed.objects.write htarget key hvalue
        exact ⟨h.of_closed (h.closed.onHeap hobjects hkept) hkept rfl rfl, hrest⟩
      | define name value =>
        exact ⟨h.of_closed (h.closed.onGlobals name heeds.1) hkept rfl rfl, heeds.2⟩
      | remember values =>
        exact ⟨⟨⟨h.closed.objects, h.closed.globals⟩, heeds.1, h.natives⟩, heeds.2⟩
    obtain ⟨hsound, hall, hanswer⟩ := ih hfirst hrest
    exact ⟨hsound, fun o ho => hall o (hkept o ho), hanswer⟩

/-! ## Scripts -/

namespace Run

/-- A run whose engine is sound and whose names refer to objects that are there. -/
structure Sound (r : Run) : Prop where
  engine : r.engine.Sound
  locals : ∀ name v, r.locals.get? name = some v → r.engine.heap.Holds v

/-- A sound run refers to objects that are there. -/
theorem Sound.closed {r : Run} (h : r.Sound) : r.Closed := ⟨h.engine.closed, h.locals⟩

/-- A run that is over refers to objects that are there, and so does its value. -/
def SoundOutcome {ε : Type} (outcome : Except ε Value × Run) : Prop :=
  outcome.2.Sound ∧ ∀ v, outcome.1 = .ok v → outcome.2.engine.heap.Holds v

/-- A run that fails has no value that could refer to anything. -/
theorem SoundOutcome.error {ε : Type} {r : Run} (h : r.Sound) (err : ε) :
    SoundOutcome (.error err, r) := by
  refine ⟨h, ?_⟩
  rintro _ ⟨⟩

/-- A run that succeeds is sound when its value refers to nothing that is missing. -/
theorem SoundOutcome.ok {ε : Type} {r : Run} (h : r.Sound) {v : Value}
    (hv : r.engine.heap.Holds v) : SoundOutcome ((.ok v, r) : Except ε Value × Run) := by
  refine ⟨h, ?_⟩
  rintro _ ⟨⟩
  exact hv

/-- A sound run in which nothing is applied, and which is closed, is still sound. -/
theorem Sound.of_intact {r r' : Run} (h : r.Sound) (hintact : r.engine.Intact r'.engine)
    (hc : r'.Closed) : r'.Sound :=
  ⟨h.engine.of_closed hc.engine hintact.kept hintact.natives hintact.memory, hc.locals⟩

/-- Evaluating an expression keeps a run sound. -/
theorem Sound.evaluate {r : Run} (h : r.Sound) (x : Expression) : SoundOutcome (r.evaluate x) :=
  ⟨h.of_intact (r.evaluate_intact x) (h.closed.evaluate x).1, (h.closed.evaluate x).2⟩

/-- Assigning a value that is there keeps a run sound. -/
theorem Sound.assign {r : Run} (h : r.Sound) (target : Path) {value : Value}
    (hvalue : r.engine.heap.Holds value) : (r.assign target value).2.Sound :=
  have hc := h.closed.assign target hvalue
  have hkeeps := r.assign_keeps target value
  ⟨h.engine.of_closed hc.engine (r.assign_written target value).kept hkeeps.1 hkeeps.2, hc.locals⟩

/-- Declaring a root keeps a run sound. -/
theorem Sound.declareRoot {r : Run} (h : r.Sound) (path : String) : (r.declareRoot path).2.Sound :=
  have hc := h.closed.declareRoot path
  have hkeeps := r.declareRoot_keeps path
  ⟨h.engine.of_closed hc.engine (r.declareRoot_written path).kept hkeeps.1 hkeeps.2, hc.locals⟩

/-- A call keeps a run sound, and answers with a value that is there. -/
theorem Sound.call {r : Run} (h : r.Sound) (callee : String) (args : List Expression) :
    SoundOutcome (r.call callee args) := by
  unfold Run.call
  split
  · split <;> exact .error h _
  · rename_i native hnative
    obtain ⟨hclosed, hvalues⟩ := h.closed.evaluateAll args
    have hintact := (r.evaluateAll_intact args).1
    rcases hall : r.evaluateAll args with ⟨f | values, mid⟩ <;>
      rw [hall] at hclosed hvalues hintact
    · exact .error (h.of_intact hintact hclosed) f
    · have hmid : mid.Sound := h.of_intact hintact hclosed
      have heeds := h.engine.natives callee native hnative mid.engine.heap mid.engine.memory values
        hintact.kept hclosed.engine.objects hmid.engine.memory (hvalues values rfl)
      obtain ⟨hsound, hkept, hanswer⟩ := hmid.engine.actAll heeds
      exact ⟨⟨hsound, fun name v hv => (hclosed.locals name v hv).kept hkept⟩, hanswer⟩

/-- A statement keeps a run sound. -/
theorem Sound.perform {r : Run} (h : r.Sound) (action : Action) :
    SoundOutcome (r.perform action) := by
  generalize houtcome : r.perform action = outcome
  cases performs_of_eq houtcome with
  | varFails _ value hvalue | assignFails _ value hvalue | throwFails value hvalue
  | throw value hvalue =>
    have hsound := h.evaluate value
    rw [hvalue] at hsound
    exact .error hsound.1 _
  | @var name init v r' hvalue =>
    have hsound := h.evaluate init
    rw [hvalue] at hsound
    have hbound : Sound { r' with locals := r'.locals.set name v } :=
      ⟨hsound.1.engine, (hsound.1.closed.onLocals name (hsound.2 v rfl)).locals⟩
    exact .ok hbound (Heap.holds_plain _ rfl)
  | declareFails path hdeclare =>
    have hsound := h.declareRoot path
    rw [hdeclare] at hsound
    exact .error hsound _
  | declare path hdeclare =>
    have hsound := h.declareRoot path
    rw [hdeclare] at hsound
    exact .ok hsound (Heap.holds_plain _ rfl)
  | @assignStops target value v f _ _ hvalue hassign =>
    have hsound := h.evaluate value
    rw [hvalue] at hsound
    have hnext := hsound.1.assign target (hsound.2 v rfl)
    rw [hassign] at hnext
    exact .error hnext f
  | @assign target value v r' _ hvalue hassign =>
    have hsound := h.evaluate value
    rw [hvalue] at hsound
    have hnext := hsound.1.assign target (hsound.2 v rfl)
    have hkept := (r'.assign_written target v).kept
    rw [hassign] at hnext hkept
    exact .ok hnext ((hsound.2 v rfl).kept hkept)
  | call callee args hcall => exact hcall ▸ h.call callee args
  | expression value hvalue => exact hvalue ▸ h.evaluate value

/-- Running statements brings about no reference to an object that is not there. -/
theorem Sound.statements {r : Run} (h : r.Sound) {last : Value}
    (hlast : r.engine.heap.Holds last) (program : Program) :
    SoundOutcome (Run.statements r last program) := by
  induction program generalizing r last with
  | nil => exact .ok h hlast
  | cons s rest ih =>
    have hfirst := h.perform s.action
    unfold Run.statements
    rcases hp : r.perform s.action with ⟨f | v, r'⟩ <;> rw [hp] at hfirst
    · exact .error hfirst.1 _
    · exact ih hfirst.1 (hfirst.2 v rfl)

end Run

/-- Whether a script succeeds or fails, what it leaves refers to objects that are there. -/
theorem Engine.sound_evaluate {e : Engine} (h : e.Sound) (source : String)
    {bindings : Table Value}
    (hbindings : ∀ name v, bindings.get? name = some v → e.heap.Holds v) :
    (e.evaluate source bindings).2.Sound := by
  cases hparse : parseProgram source with
  | error err =>
    rw [evaluate_of_error hparse]
    exact h
  | ok program =>
    rw [evaluate_of_ok hparse]
    have hrun : Run.Sound ⟨e, bindings⟩ := ⟨h, hbindings⟩
    have hundefined : e.heap.Holds .undefined := e.heap.holds_plain rfl
    exact (hrun.statements hundefined program).1.engine

end ModuleLoader.Script
