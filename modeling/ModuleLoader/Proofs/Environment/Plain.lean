import ModuleLoader.Proofs.Environment.Flush

/-!
# Loading without concurrency

A plain loader takes modules one after the other: it retrieves a module, evaluates it at once and
passes over a failed evaluation.  After the first module that cannot be retrieved it evaluates no
more and only retrieves the others.  Main statement: `load_eq`, what the plain loader comes to, in
terms of a walk over the modules before the first failed retrieval.
-/

set_option autoImplicit false

namespace ModuleLoader

open ModuleLoader.Namespace (Layer WrapOptions)

/-- What comes of loading modules one after the other. -/
structure Plain where
  layer : Layer
  /-- The modules evaluated, in order. -/
  evaluated : List String
  /-- The modules that failed, in order. -/
  failed : List String
  /-- What became of all modules, in order. -/
  records : List ModuleRecord
  /-- The modules from the first one on that could not be retrieved. -/
  left : List String

namespace Plain

variable (content : String → Except RetrievalFailure String)

/-- A module that was retrieved and not evaluated. -/
def retrieved (spec : ModuleSpec) : ModuleRecord := spec.record (.ofRetrieval (content spec.location))

/-- The modules of a list that cannot be retrieved. -/
def unretrieved : List ModuleSpec → List String
  | [] => []
  | spec :: rest =>
    match content spec.location with
    | .ok _ => unretrieved rest
    | .error _ => spec.id :: unretrieved rest

/-- Load modules one after the other. -/
def load (options : WrapOptions) : List ModuleSpec → Layer → Plain
  | [], layer => ⟨layer, [], [], [], []⟩
  | spec :: rest, layer =>
    match content spec.location with
    | .error _ => {
        layer
        evaluated := []
        failed := unretrieved content (spec :: rest)
        records := (spec :: rest).map (retrieved content)
        left := (spec :: rest).map (·.id) }
    | .ok code =>
      match layer.loadModule options ⟨spec.id, spec.location, spec.hasSourceMap⟩ code with
      | (.ok (), layer) =>
        let r := load options rest layer
        { r with
          evaluated := spec.id :: r.evaluated
          records := spec.record .evaluated :: r.records }
      | (.error failure, layer) =>
        let r := load options rest layer
        { r with
          failed := spec.id :: r.failed
          records := spec.record (.failed (.evaluation failure)) :: r.records }

end Plain

/-- The modules of a walk whose evaluation failed. -/
def failedIds (results : List (ModuleSpec × Except EvaluationFailure Unit)) : List String :=
  results.filterMap fun
    | (_, .ok ()) => none
    | (spec, .error _) => some spec.id

namespace Plain

open Environment (evaluator)

/-- Loading modules that can all be retrieved, before one that cannot, is walking over them. -/
theorem load_eq (content : String → Except RetrievalFailure String) (options : WrapOptions)
    {done : List (ModuleSpec × String)} {rest : List ModuleSpec}
    (hdone : ∀ e ∈ done, content e.1.location = .ok e.2)
    (hrest : ∀ spec ∈ rest.head?, ∃ failure, content spec.location = .error failure)
    (layer : Layer) :
    load content options (done.map (·.1) ++ rest) layer =
      let (results, final) := (evaluator options).walk done layer
      { layer := final
        evaluated := evaluatedIds results
        failed := failedIds results ++ unretrieved content rest
        records := results.map (fun e => e.1.record (.ofOutcome e.2)) ++ rest.map (retrieved content)
        left := rest.map (·.id) } := by
  induction done generalizing layer with
  | nil =>
    cases rest with
    | nil => rfl
    | cons spec rest =>
      obtain ⟨failure, hf⟩ := hrest spec rfl
      simp [load, hf, Evaluator.walk, evaluatedIds, failedIds]
  | cons e done ih =>
    obtain ⟨spec, code⟩ := e
    have hcode := hdone (spec, code) List.mem_cons_self
    obtain ⟨result, layer', hload⟩ : ∃ result layer', layer.loadModule options
        ⟨spec.id, spec.location, spec.hasSourceMap⟩ code = (result, layer') := ⟨_, _, rfl⟩
    have hevaluate : evaluator options (spec.record (.retrieved code)) code layer =
        (result, layer') := hload
    have hnext := ih (fun d hd => hdone d (List.mem_cons_of_mem _ hd)) layer'
    rw [List.map_cons, List.cons_append]
    cases result with
    | ok u =>
      simp only [load, hcode, hload, hnext, Evaluator.walk, hevaluate]
      simp [evaluatedIds, failedIds, ModuleState.ofOutcome]
    | error failure =>
      simp only [load, hcode, hload, hnext, Evaluator.walk, hevaluate]
      simp [evaluatedIds, failedIds, ModuleState.ofOutcome]

/-- A store that holds just some records holds under an id the record of this id. -/
theorem get?_eq_find? {store : ModuleStore} {records : List ModuleRecord}
    (held : ∀ record ∈ records, store.get? record.id = some record)
    (others : ∀ id ∉ records.map (·.id), store.get? id = none) (id : String) :
    store.get? id = records.find? (·.id == id) := by
  cases hfind : records.find? (·.id == id) with
  | none =>
    refine others id fun hmem => ?_
    obtain ⟨record, hr, he⟩ := List.mem_map.1 hmem
    have hne := List.find?_eq_none.1 hfind record hr
    simp [he] at hne
  | some record =>
    have hid : record.id = id := by simpa using List.find?_some hfind
    rw [← hid]
    exact held record (List.mem_of_find?_eq_some hfind)

end Plain

/-- The failure of a unit names its module. -/
theorem Namespace.ExecutableUnit.module_of_run {unit : Namespace.ExecutableUnit}
    {e e' : Script.Engine} {holder : Script.ObjectId} {failure : EvaluationFailure}
    (h : unit.run e holder = (.error failure, e')) : failure.module = unit.module := by
  unfold Namespace.ExecutableUnit.run at h
  split at h
  · cases h
  · cases h
    rfl

/-- The failure of a module that is loaded names it. -/
theorem Namespace.Layer.module_of_loadModule {layer layer' : Layer} {options : WrapOptions}
    {info : Namespace.SourceInfo} {code : String} {failure : EvaluationFailure}
    (h : layer.loadModule options info code = (.error failure, layer')) :
    failure.module = info.module := by
  unfold Namespace.Layer.loadModule at h
  split at h
  · cases h
  · obtain ⟨hrun, -⟩ := Prod.mk.inj h
    exact Namespace.ExecutableUnit.module_of_run (Prod.ext hrun rfl)

/-- The failures of a walk name the modules that failed in it. -/
theorem Environment.module_failuresOf (options : WrapOptions)
    (modules : List (ModuleSpec × String)) (layer : Layer) :
    (failuresOf ((evaluator options).walk modules layer).1).map (·.module) =
      failedIds ((evaluator options).walk modules layer).1 := by
  induction modules generalizing layer with
  | nil => rfl
  | cons e rest ih =>
    obtain ⟨result, layer', hevaluate⟩ : ∃ result layer',
        evaluator options (e.1.record (.retrieved e.2)) e.2 layer = (result, layer') := ⟨_, _, rfl⟩
    have hrest := ih layer'
    simp only [Evaluator.walk, hevaluate]
    cases result with
    | ok u => exact hrest
    | error failure =>
      have hmodule : failure.module = e.1.id := Namespace.Layer.module_of_loadModule hevaluate
      simp only [failuresOf, failedIds, List.filterMap_cons, List.map_cons, hmodule] at hrest ⊢
      rw [hrest]

end ModuleLoader
