import ModuleLoader.Namespace.Scope
import ModuleLoader.Proofs.Script.Writes

/-!
# What discovering roots changes

A root that a module declares and that is not known gets a fresh container, whatever the holder has
under its name.  A property of the holder that is no known root was written by a module evaluated
before: through the scope itself or an alias, without a declaration.  Main statement:
`Layer.discoverRoots_adds_iff`, discovering the roots of a body replaces nothing just when no module
before has written a property of the holder under a name that is new among them.
-/

set_option autoImplicit false

namespace ModuleLoader.Namespace

open ModuleLoader.Script

/-! ## Registering names -/

/-- Registering names adds those that are not known, each with a fresh container, and changes nothing
else. -/
structure Scope.Registers (s : Scope) (e : Engine) (names : List String)
    (result : List String × Scope × Engine) : Prop where
  mem_added : ∀ name, name ∈ result.1 ↔ name ∈ names ∧ name ∉ s.roots
  scope : result.2.1 = ⟨s.holder, s.roots ++ result.1⟩
  kept : ∀ o, e.heap.Has o → result.2.2.heap.Has o
  same : ∀ o key, ¬(o = s.holder ∧ key ∈ result.1) →
    result.2.2.heap.read o key = e.heap.read o key
  fresh : ∀ name ∈ result.1, ∃ c, ¬ e.heap.Has c ∧
    result.2.2.heap.read s.holder name = some (.object c)

/-- A root that is added is a property of the holder and refers to the object made for it; all other
properties stay. -/
theorem Scope.read_addRoot (s : Scope) (e : Engine) (name : String) (h : e.heap.Has s.holder)
    (o : ObjectId) (key : String) : (s.addRoot e name).2.heap.read o key =
      if o = s.holder ∧ key = name then some (.object e.heap.next) else e.heap.read o key := by
  have halloc : e.heap.alloc.Has s.holder := (e.heap.has_alloc _).2 (.inl h)
  show (e.heap.alloc.write s.holder name (.object e.heap.next)).read o key = _
  rw [Heap.read_write _ _ _ halloc, Heap.read_alloc]

/-- Adding a root takes no object away. -/
theorem Scope.has_addRoot (s : Scope) (e : Engine) (name : String) {o : ObjectId}
    (h : e.heap.Has o) : (s.addRoot e name).2.heap.Has o := by
  show (e.heap.alloc.write s.holder name (.object e.heap.next)).Has o
  rw [Heap.has_write, Heap.has_alloc]
  exact .inl h

/-- Registering names is what `Scope.Registers` says of it. -/
theorem Scope.register_registers (s : Scope) (e : Engine) (names : List String)
    (h : e.heap.Has s.holder) : s.Registers e names (s.register e names) := by
  induction names generalizing s e with
  | nil =>
    refine ⟨by simp [Scope.register], ?_, fun _ ho => ho, fun _ _ _ => rfl, nofun⟩
    simp [Scope.register]
  | cons name names ih =>
    unfold Scope.register
    split
    · rename_i hknown
      have hr := ih s e h
      rw [List.contains_iff_mem] at hknown
      refine ⟨fun other => ?_, hr.scope, hr.kept, hr.same, hr.fresh⟩
      rw [hr.mem_added, List.mem_cons]
      constructor
      · exact fun ⟨hmem, hnot⟩ => ⟨.inr hmem, hnot⟩
      · rintro ⟨rfl | hmem, hnot⟩
        · exact absurd hknown hnot
        · exact ⟨hmem, hnot⟩
    · rename_i hnew
      rw [List.contains_iff_mem] at hnew
      have hread := s.read_addRoot e name h
      have hkept := fun o (ho : e.heap.Has o) => s.has_addRoot e name ho
      have hr := ih (s.addRoot e name).1 (s.addRoot e name).2 (hkept _ h)
      have hnot : name ∉ (Scope.register (s.addRoot e name).1 (s.addRoot e name).2 names).1 := by
        intro hmem
        exact ((hr.mem_added name).1 hmem).2 (List.mem_append_right _ List.mem_cons_self)
      refine ⟨fun other => ?_, ?_, fun o ho => hr.kept o (hkept o ho), fun o key hother => ?_, ?_⟩
      · show other ∈ name :: _ ↔ _
        rw [List.mem_cons, List.mem_cons, hr.mem_added]
        show other = name ∨ (other ∈ names ∧ other ∉ s.roots ++ [name]) ↔ _
        rw [List.mem_append, List.mem_singleton]
        by_cases he : other = name
        · simp [he, hnew]
        · simp [he]
      · show (Scope.register (s.addRoot e name).1 (s.addRoot e name).2 names).2.1 = _
        rw [hr.scope]
        show Scope.mk s.holder ((s.roots ++ [name]) ++ _) = Scope.mk s.holder (s.roots ++ (name :: _))
        rw [List.append_assoc]
        rfl
      · have hrest : ¬(o = s.holder ∧
            key ∈ (Scope.register (s.addRoot e name).1 (s.addRoot e name).2 names).1) :=
          fun hc => hother ⟨hc.1, List.mem_cons_of_mem _ hc.2⟩
        have hfirst : ¬(o = s.holder ∧ key = name) := by
          rintro ⟨ho, rfl⟩
          exact hother ⟨ho, List.mem_cons_self⟩
        exact (hr.same o key hrest).trans ((hread o key).trans (if_neg hfirst))
      · intro other hmem
        rcases List.mem_cons.1 hmem with rfl | hmem
        · refine ⟨e.heap.next, Heap.not_has_next _, ?_⟩
          have hsame := hr.same s.holder other fun hc => hnot hc.2
          exact hsame.trans ((hread s.holder other).trans (if_pos ⟨rfl, rfl⟩))
        · obtain ⟨c, hc, hcontainer⟩ := hr.fresh other hmem
          exact ⟨c, fun hhas => hc (hkept c hhas), hcontainer⟩

/-! ## What modules write -/

/-- The properties that a unit writes. -/
def ExecutableUnit.writes (unit : ExecutableUnit) (e : Engine) (holder : ObjectId) :
    List (ObjectId × String) :=
  match parseProgram unit.source with
  | .error _ => []
  | .ok program =>
    Run.statementsWrites ⟨e, Table.empty.set scopeBinding (.object holder)⟩ program

/-- Running a unit changes the properties that its script writes, and no others. -/
theorem ExecutableUnit.run_written (unit : ExecutableUnit) (e : Engine) (holder : ObjectId) :
    e.heap.Written (unit.writes e holder) (unit.run e holder).2.heap := by
  unfold writes run Engine.evaluate
  cases parseProgram unit.source with
  | error err => exact .refl _
  | ok program =>
    have hwritten := Run.statements_written
      ⟨e, Table.empty.set scopeBinding (.object holder)⟩ .undefined program
    simp only [Engine.runProgram]
    cases hr : Run.statements ⟨e, Table.empty.set scopeBinding (.object holder)⟩ .undefined program with
    | mk result r =>
      rw [hr] at hwritten
      cases result <;> exact hwritten

namespace Layer

/-- The properties that a module writes, once the roots it declares are registered. -/
def writes (l : Layer) (options : WrapOptions) (info : SourceInfo) (body : String) :
    List (ObjectId × String) :=
  if Text.isBlankText body then []
  else
    let (_, scope, e) := l.scope.discoverRoots l.engine body
    (wrap body scope.roots info options).writes e scope.holder

/-- Evaluate some modules in turn, whether they fail or not. -/
def loadAll (l : Layer) (options : WrapOptions) : List (SourceInfo × String) → Layer
  | [] => l
  | (info, body) :: rest => (l.loadModule options info body).2.loadAll options rest

/-- The properties that some modules write in turn. -/
def allWrites (l : Layer) (options : WrapOptions) :
    List (SourceInfo × String) → List (ObjectId × String)
  | [] => []
  | (info, body) :: rest =>
    l.writes options info body ++ (l.loadModule options info body).2.allWrites options rest

/-- The holder has a property for each root that is known and for each property of it that was
written, and no others. -/
structure Tracks (l : Layer) (written : List (ObjectId × String)) : Prop where
  has : l.engine.heap.Has l.scope.holder
  there : ∀ name, l.engine.heap.read l.scope.holder name ≠ none ↔
    name ∈ l.scope.roots ∨ (l.scope.holder, name) ∈ written

/-- A new layer has an empty holder. -/
theorem tracks_make (e : Engine) : (make e).Tracks [] where
  has := (e.heap.has_alloc _).2 (.inr rfl)
  there name := by
    have hnone : (make e).engine.heap.read (make e).scope.holder name = none := by
      show e.heap.alloc.read e.heap.next name = none
      rw [Heap.read_alloc, Heap.read_of_not_has (Heap.not_has_next _)]
    have hempty : (make e).scope.roots = [] := rfl
    rw [hnone, hempty]
    simp

/-- Loading a module adds its roots to the holder, and what it writes. -/
theorem Tracks.loadModule {l : Layer} {written : List (ObjectId × String)} (h : l.Tracks written)
    (options : WrapOptions) (info : SourceInfo) (body : String) :
    (l.loadModule options info body).2.scope.holder = l.scope.holder ∧
      (l.loadModule options info body).2.Tracks (written ++ l.writes options info body) := by
  unfold Layer.loadModule writes
  split
  · rw [List.append_nil]
    exact ⟨rfl, h⟩
  · have hr := l.scope.register_registers l.engine (declaredRoots body) h.has
    rcases hd : l.scope.discoverRoots l.engine body with ⟨added, scope, e⟩
    rw [show l.scope.register l.engine (declaredRoots body) = (added, scope, e) from hd] at hr
    have hscope := hr.scope
    simp only at hscope
    simp only [hscope]
    have hhas := hr.kept _ h.has
    have hdiscovered : ∀ name, e.heap.read l.scope.holder name ≠ none ↔
        name ∈ l.scope.roots ++ added ∨ (l.scope.holder, name) ∈ written := by
      intro name
      rw [List.mem_append, or_right_comm, ← h.there name]
      by_cases hmem : name ∈ added
      · obtain ⟨c, -, hc⟩ := hr.fresh name hmem
        simp only at hc
        simp [hmem, hc]
      · have hsame := hr.same l.scope.holder name fun hc => hmem hc.2
        simp only at hsame
        rw [hsame, or_iff_left hmem]
    have hwritten := ExecutableUnit.run_written
      (wrap body (l.scope.roots ++ added) info options) e l.scope.holder
    refine ⟨trivial, hwritten.kept _ hhas, fun name => ?_⟩
    rw [hwritten.read_ne_none_iff hhas, hdiscovered, or_assoc]
    exact or_congr_right List.mem_append.symm

/-- So does loading several modules in turn. -/
theorem Tracks.loadAll {l : Layer} {written : List (ObjectId × String)} (h : l.Tracks written)
    (options : WrapOptions) (loads : List (SourceInfo × String)) :
    (l.loadAll options loads).Tracks (written ++ l.allWrites options loads) := by
  induction loads generalizing l written with
  | nil =>
    rw [allWrites, List.append_nil]
    exact h
  | cons load loads ih =>
    have hnext := (h.loadModule options load.1 load.2).2
    rw [allWrites, ← List.append_assoc]
    exact ih hnext

/-- Any modules may have been evaluated before, and each may have failed.  Discovering the roots of a
body then gives each root that is declared and not known a fresh container of its own, empty, and
changes nothing else.  So it replaces no property of the holder just when no module before has
written one under the name of such a root. -/
theorem discoverRoots_adds_iff (options : WrapOptions) (e : Engine)
    (loads : List (SourceInfo × String)) (body : String) :
    let written := (make e).allWrites options loads
    let layer := (make e).loadAll options loads
    let holder := layer.scope.holder
    let heap := layer.engine.heap
    let (added, scope, after) := layer.scope.discoverRoots layer.engine body
    (∀ name, name ∈ added ↔ name ∈ declaredRoots body ∧ name ∉ layer.scope.roots) ∧
    scope = ⟨holder, layer.scope.roots ++ added⟩ ∧
    (∀ o key, ¬(o = holder ∧ key ∈ added) → after.heap.read o key = heap.read o key) ∧
    (∀ name ∈ added, ∃ c, ¬ heap.Has c ∧ after.heap.read holder name = some (.object c) ∧
      ∀ key, after.heap.read c key = none) ∧
    (((∀ name value, heap.read holder name = some value →
        after.heap.read holder name = some value) ∧
      ∀ name ∈ added, heap.read holder name = none) ↔
        ∀ name ∈ added, (holder, name) ∉ written) := by
  intro written layer holder heap
  have htracks : layer.Tracks written := (tracks_make e).loadAll options loads
  have hr := layer.scope.register_registers layer.engine (declaredRoots body) htracks.has
  rcases hd : layer.scope.discoverRoots layer.engine body with ⟨added, scope, after⟩
  rw [show layer.scope.register layer.engine (declaredRoots body) = (added, scope, after) from hd]
    at hr
  have hnew : ∀ name ∈ added, (heap.read holder name = none ↔ (holder, name) ∉ written) := by
    intro name hmem
    have hthere := htracks.there name
    rw [or_iff_right ((hr.mem_added name).1 hmem).2] at hthere
    rw [← hthere]
    exact Classical.not_not.symm
  refine ⟨hr.mem_added, hr.scope, hr.same, fun name hmem => ?_, ?_⟩
  · obtain ⟨c, hc, hcontainer⟩ := hr.fresh name hmem
    refine ⟨c, hc, hcontainer, fun key => ?_⟩
    have hne : c ≠ holder := by
      rintro rfl
      exact hc htracks.has
    exact (hr.same c key fun hcon => hne hcon.1).trans (Heap.read_of_not_has hc key)
  · constructor
    · rintro ⟨-, habsent⟩ name hmem
      exact (hnew name hmem).1 (habsent name hmem)
    · intro hall
      have habsent : ∀ name ∈ added, heap.read holder name = none := fun name hmem =>
        (hnew name hmem).2 (hall name hmem)
      refine ⟨fun name value hread => ?_, habsent⟩
      have hnot : name ∉ added := by
        intro hmem
        rw [habsent name hmem] at hread
        cases hread
      exact (hr.same holder name fun hc => hnot hc.2).trans hread

/-- A module fills a container under a name it does not declare; one that declares the name finds the
container empty. -/
theorem discoverRoots_adds_iff_alias :
    let loads := [(SourceInfo.mk "a.js" "/out/a.js" false, "$BASE.lib = {}\n$BASE.lib.x = 1")]
    let layer := (make .initial).loadAll .default loads
    let (added, _, after) := layer.scope.discoverRoots layer.engine "declare-root('lib.y')"
    "lib" ∈ added ∧ ∃ filled emptied,
      layer.engine.heap.read layer.scope.holder "lib" = some (.object filled) ∧
      layer.engine.heap.read filled "x" ≠ none ∧
      after.heap.read layer.scope.holder "lib" = some (.object emptied) ∧
      after.heap.read emptied "x" = none := by
  intro loads layer
  obtain ⟨hdeclared, hunknown, hfilled, hx⟩ : "lib" ∈ declaredRoots "declare-root('lib.y')" ∧
      "lib" ∉ layer.scope.roots ∧
      layer.engine.heap.read layer.scope.holder "lib" = some (.object ⟨1⟩) ∧
      layer.engine.heap.read ⟨1⟩ "x" ≠ none := by decide +kernel +revert
  obtain ⟨hadded, -, -, hfresh, -⟩ :=
    discoverRoots_adds_iff .default .initial loads "declare-root('lib.y')"
  have hlib : "lib" ∈ (layer.scope.discoverRoots layer.engine "declare-root('lib.y')").1 :=
    (hadded "lib").2 ⟨hdeclared, hunknown⟩
  obtain ⟨emptied, -, hemptied, hnone⟩ := hfresh "lib" hlib
  exact ⟨hlib, ⟨1⟩, emptied, hfilled, hx, hemptied, hnone "x"⟩

end Layer

end ModuleLoader.Namespace
