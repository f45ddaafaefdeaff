import ModuleLoader.Proofs.Namespace.Preamble
import ModuleLoader.Proofs.Script.Globals

/-!
# Evaluation keeps the namespace private

The names that a script binds are gone when it is over; of what it does to names only what it has
written to the globals stays.  A unit binds the names of its preamble before its body runs, so that no
assignment in the body reaches a global of such a name.  Main statement: `evaluation_private`.  Aliases
that no configuration may have can do otherwise: `loadModule_writes_alias`.
-/

set_option autoImplicit false

namespace ModuleLoader.Namespace

open ModuleLoader.Script

/-! ## Engines of units -/

/-- Registering roots changes neither the globals nor the host functions. -/
theorem Scope.register_keeps (s : Scope) (e : Engine) (names : List String) :
    (s.register e names).2.2.globals = e.globals ∧ (s.register e names).2.2.natives = e.natives := by
  induction names generalizing s e with
  | nil => exact ⟨rfl, rfl⟩
  | cons name names ih =>
    unfold register
    split
    · exact ih s e
    · exact ih (s.addRoot e name).1 (s.addRoot e name).2

/-- A unit leaves the engine that its source leaves. -/
theorem ExecutableUnit.engine_run (unit : ExecutableUnit) (e : Engine) (holder : ObjectId) :
    (unit.run e holder).2 =
      (e.evaluate unit.source (Table.empty.set scopeBinding (.object holder))).2 := by
  unfold run
  split
  · rename_i hrun
    rw [hrun]
  · rename_i hrun
    rw [hrun]

/-- What a unit writes to the globals, in turn. -/
def ExecutableUnit.globalWrites (unit : ExecutableUnit) (e : Engine) (holder : ObjectId) :
    List (String × Value) :=
  e.globalWrites unit.source (Table.empty.set scopeBinding (.object holder))

/-- A module leaves the globals with what its unit has written to them. -/
theorem Layer.globals_loadModule (l : Layer) (options : WrapOptions) (info : SourceInfo)
    {body : String} (hbody : Text.isBlankText body = false) :
    let scope := (l.scope.discoverRoots l.engine body).2.1
    let engine := (l.scope.discoverRoots l.engine body).2.2
    (l.loadModule options info body).2.engine.globals = l.engine.globals.setAll
      ((wrap body scope.roots info options).globalWrites engine scope.holder) := by
  intro scope engine
  have hload : (l.loadModule options info body).2.engine =
      ((wrap body scope.roots info options).run engine scope.holder).2 := by
    unfold loadModule
    rw [hbody]
    rfl
  rw [hload, ExecutableUnit.engine_run, Engine.globals_evaluate]
  exact congrArg (Table.setAll · _) (l.scope.register_keeps l.engine _).1

/-! ## Names that a preamble binds -/

/-- The preamble binds every alias and every root. -/
theorem mem_bound {roots : List String} {options : WrapOptions} {name : String}
    (h : name ∈ options.aliases ∨ name ∈ roots) : ∃ path, (name, path) ∈ bound roots options := by
  by_cases halias : name ∈ options.aliases
  · exact ⟨_, List.mem_append_left _ (List.mem_map_of_mem halias)⟩
  · have hroot : name ∈ roots.filter fun root => !options.aliases.contains root :=
      List.mem_filter.2 ⟨h.resolve_left halias, by simpa using halias⟩
    exact ⟨_, List.mem_append_right _ (List.mem_map_of_mem hroot)⟩

/-- A program that begins with a binding of a name assigns to the name only behind the binding. -/
theorem exists_var_of_front {front rest before after : Program} {s : Statement}
    (hprogram : front ++ rest = before ++ s :: after)
    (hfront : ∀ t ∈ front, ∃ name init, t.action = .var name init)
    (hs : ∀ name init, s.action ≠ .var name init) {t : Statement} (ht : t ∈ front) : t ∈ before := by
  have hbefore : before ++ [s] <+: front ++ rest := by
    rw [hprogram]
    exact ⟨after, by simp⟩
  have hnot : s ∉ front := by
    intro hmem
    obtain ⟨name, init, hvar⟩ := hfront s hmem
    exact hs name init hvar
  rcases List.prefix_or_prefix_of_prefix (List.prefix_append front rest) hbefore with hle | hle
  · rcases List.mem_append.1 (hle.subset ht) with hmem | hmem
    · exact hmem
    · rw [List.mem_singleton.1 hmem] at ht
      exact absurd ht hnot
  · exact absurd (hle.subset (List.mem_append_right _ List.mem_cons_self)) hnot

/-- Where no host function touches the globals, no unit writes a global of a name that it binds before
its body. -/
theorem not_mem_globalWrites_wrap {config : Configuration} (hvalid : config.validate = .ok ())
    {scope : Scope} (hscope : scope.Discovered) (body : String) (info : SourceInfo) {e : Engine}
    (hspares : e.AllNatives Native.SparesGlobals) {name : String}
    (hname : name = scopeBinding ∨ name ∈ config.wrapOptions.aliases ∨ name ∈ scope.roots)
    (v : Value) : (name, v) ∉
      (wrap body scope.roots info config.wrapOptions).globalWrites e scope.holder := by
  intro hwrite
  obtain ⟨before, s, after, value, w, r, hparse, -, haction, -, hbinding, hvar⟩ :=
    Engine.mem_globalWrites hspares hwrite
  have hlisted : name ∈ config.wrapOptions.aliases ∨ name ∈ scope.roots := by
    refine hname.resolve_left ?_
    rintro rfl
    cases (Table.get?_set_self _ _ _).symm.trans hbinding
  obtain ⟨path, hpath⟩ := mem_bound hlisted
  obtain ⟨front, hfront, hwhole⟩ := programFrom_preamble (bindable_of_validate hvalid)
    hscope.bindable (body ++ trailer info config.wrapOptions)
  have hsource : (wrap body scope.roots info config.wrapOptions).source =
      linesText (preamble scope.roots config.wrapOptions) ++
        (body ++ trailer info config.wrapOptions) := String.append_assoc
  rw [hsource, hwhole] at hparse
  have hvars : ∀ t ∈ front, ∃ name init, t.action = .var name init := by
    intro t ht
    have hmem := List.mem_map_of_mem (f := Statement.action) ht
    rw [hfront] at hmem
    obtain ⟨b, -, hb⟩ := List.mem_map.1 hmem
    exact ⟨b.1, .path b.2, hb.symm⟩
  split at hparse
  · obtain ⟨t, ht, hbinds⟩ : ∃ t ∈ front, t.action = .var name (.path path) := by
      have hmem := List.mem_map_of_mem (f := fun b : String × Path =>
        Action.var b.1 (.path b.2)) hpath
      rw [← hfront] at hmem
      exact List.mem_map.1 hmem
    have hbefore := exists_var_of_front (Except.ok.inj hparse) hvars
      (by simp [haction]) ht
    exact hvar t hbefore _ hbinds
  · cases hparse

/-! ## Privacy -/

/-- On an engine whose host functions do not touch the globals, whatever else they do, a script leaves
the globals with what it has written to them, whether it succeeds or fails, and it writes to a global
only where it assigns to a bare name that is neither in its bindings nor bound by a statement before.
The next script sees of a name that it has not bound itself what the globals have, and if it has not
assigned to it either, what the globals had before.  No unit of a module, with aliases that a
configuration may have, writes a global of the name of the scope, of an alias or of a root that is known
when its body runs. -/
theorem evaluation_private :
    (∀ e : Engine, e.AllNatives Native.SparesGlobals → ∀ (source : String) (bindings : Table Value),
      let e' := (e.evaluate source bindings).2
      let writes := e.globalWrites source bindings
      e'.globals = e.globals.setAll writes ∧
      (∀ name, e'.globals.get? name ≠ e.globals.get? name → ∃ v, (name, v) ∈ writes) ∧
      (∀ name v, (name, v) ∈ writes → ∃ before s after value w r,
        parseProgram source = .ok (before ++ s :: after) ∧
        Run.statements ⟨e, bindings⟩ .undefined before = (.ok w, r) ∧
        s.action = .assign ⟨name, []⟩ value ∧ (r.evaluate value).1 = .ok v ∧
        bindings.get? name = none ∧ ∀ t ∈ before, ∀ init, t.action ≠ .var name init) ∧
      ∀ next before v r, Run.statements ⟨e', next⟩ .undefined before = (.ok v, r) →
        ∀ name, next.get? name = none → (∀ t ∈ before, ∀ init, t.action ≠ .var name init) →
          r.lookup name = r.engine.globals.get? name ∧
          ((∀ t ∈ before, ∀ value, t.action ≠ .assign ⟨name, []⟩ value) →
            r.lookup name = e'.globals.get? name)) ∧
    ∀ config : Configuration, config.validate = .ok () → ∀ layer : Layer, layer.scope.Discovered →
      layer.engine.AllNatives Native.SparesGlobals → ∀ (info : SourceInfo) (body : String),
        let options := config.wrapOptions
        let scope := (layer.scope.discoverRoots layer.engine body).2.1
        let engine := (layer.scope.discoverRoots layer.engine body).2.2
        ∀ name, name = scopeBinding ∨ name ∈ options.aliases ∨ name ∈ scope.roots →
          (∀ v, (name, v) ∉ (wrap body scope.roots info options).globalWrites engine scope.holder) ∧
          (layer.loadModule options info body).2.engine.globals.get? name =
            layer.engine.globals.get? name := by
  refine ⟨fun e hspares source bindings => ?script,
    fun config hvalid layer hlayer hspares info body => ?unit⟩
  case script =>
    intro e' writes
    have hglobals : e'.globals = e.globals.setAll writes := e.globals_evaluate source bindings
    refine ⟨hglobals, fun name hchanged => ?_, fun name v => Engine.mem_globalWrites hspares, ?_⟩
    · by_contra hnot
      rw [hglobals] at hchanged
      exact hchanged (Table.get?_setAll_of_forall_not_mem _ (not_exists.1 hnot))
    · intro next before v r hrun name hnext hvar
      have hlookup := Run.lookup_of_statements hrun hnext hvar
      refine ⟨hlookup, fun hassign => ?_⟩
      have hafter := Run.globals_statements ⟨e', next⟩ .undefined before
      rw [hrun] at hafter
      rw [hlookup, hafter]
      apply Table.get?_setAll_of_forall_not_mem
      intro w hwrite
      have hspares' : (Run.mk e' next).engine.AllNatives Native.SparesGlobals :=
        hspares.of_natives (e.natives_evaluate source bindings)
      obtain ⟨front, s, rest, value, -, -, rfl, -, haction, -⟩ :=
        Run.mem_statementsGlobals hspares' .undefined hwrite
      exact hassign s (List.mem_append_right _ List.mem_cons_self) value haction
  case unit =>
    intro options scope engine name hname
    have hscope : scope.Discovered := .discover hlayer layer.engine body
    have hspares' : engine.AllNatives Native.SparesGlobals :=
      hspares.of_natives (layer.scope.register_keeps layer.engine _).2
    have hnot := not_mem_globalWrites_wrap hvalid hscope body info hspares' hname
    refine ⟨hnot, ?_⟩
    cases hblank : Text.isBlankText body with
    | true =>
      unfold Layer.loadModule
      rw [if_pos hblank]
    | false =>
      rw [layer.globals_loadModule options info hblank]
      exact Table.get?_setAll_of_forall_not_mem _ hnot

/-- A function that marks the object it is given with a fresh one and remembers it.  A script that calls
it and stops two statements later has written one global, though the object has changed and the function
remembers it.  A module that assigns to a root it declares and to its alias leaves both globals as they
were. -/
theorem evaluation_private_stopped :
    let mark : Native := ⟨fun heap memory args =>
      match args with
      | [.object o] =>
        ([.alloc, .write o "mark" (.object heap.next), .remember (.object o :: memory)], .ok .undefined)
      | _ => ([], .error (.host .typeError "not an object"))⟩
    let e := Engine.initial.register "mark" mark
    let bindings := Table.empty.set "y" .null
    let source := "x = {}\nmark(x)\nvar z\nz = n"
    let e' := (e.evaluate source bindings).2
    let config := Configuration.default
    let layer := Layer.make e
    let info : SourceInfo := ⟨"m.js", "m.js", false⟩
    let body := "declare-root('a')\nmark(a)\na = null\n$BASE = a"
    e.AllNatives Native.SparesGlobals ∧
      (e.evaluate source bindings).1 = .error ⟨.notDefined "n", 4, 1⟩ ∧
      e.globalWrites source bindings = [("x", .object ⟨0⟩)] ∧
      e'.heap.read ⟨0⟩ "mark" = some (.object ⟨1⟩) ∧ e'.memory = [.object ⟨0⟩] ∧
      e'.globals = e.globals.setAll [("x", .object ⟨0⟩)] ∧
      ∀ name ∈ ["$BASE", "a"],
        (layer.loadModule config.wrapOptions info body).2.engine.globals.get? name =
          layer.engine.globals.get? name := by
  intro mark e bindings source e' config layer info body
  obtain ⟨hfails, hwrites, hmarked, hremembered, hroots⟩ :
      (e.evaluate source bindings).1 = .error ⟨.notDefined "n", 4, 1⟩ ∧
      e.globalWrites source bindings = [("x", .object ⟨0⟩)] ∧
      e'.heap.read ⟨0⟩ "mark" = some (.object ⟨1⟩) ∧ e'.memory = [.object ⟨0⟩] ∧
      (layer.scope.discoverRoots layer.engine body).2.1.roots = ["a"] := by
    decide +kernel +revert
  have hlog : Native.log.SparesGlobals := by
    intro heap memory args name value hdefine
    cases List.mem_singleton.1 hdefine
  have hmark : mark.SparesGlobals := by
    intro heap memory args name value hdefine
    simp only [mark] at hdefine
    split at hdefine
    · simp at hdefine
    · cases hdefine
  have hspares : e.AllNatives Native.SparesGlobals :=
    (Engine.allNatives_initial hlog).register "mark" hmark
  obtain ⟨hscript, hunit⟩ := evaluation_private
  have hglobals := (hscript e hspares source bindings).1
  rw [hwrites] at hglobals
  have hlayer : layer.scope.Discovered := .make e
  have hmodule := hunit config rfl layer hlayer hspares info body
  refine ⟨hspares, hfails, hwrites, hmarked, hremembered, hglobals, fun name hname =>
    (hmodule name ?_).2⟩
  rcases List.mem_cons.1 hname with rfl | hname
  · exact .inr (.inl List.mem_cons_self)
  · rw [hroots]
    exact .inr (.inr hname)

/-- With aliases that are no names a line of the preamble may be more than one statement, and write the
global of another alias.  No configuration has such aliases. -/
theorem loadModule_writes_alias :
    let options : WrapOptions := ⟨["a = 1; x", "b = x; c", "x"], ".map"⟩
    let config := { Configuration.default with aliases := options.aliases }
    let layer := Layer.make .initial
    let info : SourceInfo := ⟨"m.js", "/out/m.js", false⟩
    layer.scope.Discovered ∧ "x" ∈ options.aliases ∧ layer.engine.globals.get? "x" = none ∧
      (layer.loadModule options info "log(1)").1 = .ok () ∧
      (layer.loadModule options info "log(1)").2.engine.globals.get? "x" =
        some (.object layer.scope.holder) ∧
      config.validate = .error (.config (.badAlias "a = 1; x")) := by
  intro options config layer info
  refine ⟨.make .initial, ?_⟩
  decide +kernel +revert

end ModuleLoader.Namespace
