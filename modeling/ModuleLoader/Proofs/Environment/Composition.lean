import ModuleLoader.Proofs.Environment.Recording

/-!
# What operations are composed of

On every host, loading, releasing the modules held back and settling consist of a few kinds of parts:
a module is registered, a retrieval is taken account of, a module is counted as loaded, a call is
refused, the modules held back are let go, or something happens that concerns no record.  What holds
of all parts, and of parts that follow each other, holds of the operations.  Main statements:
`Composes.loadWith`, `Composes.documentReady` and `Composes.settling`.
-/

set_option autoImplicit false

namespace ModuleLoader.Environment

/-- Two environments that differ at most in the retrievals under way, in the list of modules held back
and in what was announced. -/
structure Alike (env env' : Environment) : Prop where
  config : env'.config = env.config
  specs : env'.specs = env.specs
  store : env'.store = env.store
  order : env'.order = env.order
  layer : env'.layer = env.layer
  diagnostics : env'.journal.diagnostics = env.journal.diagnostics
  progress : env'.progress = env.progress
  documentWrite : env'.documentWrite = env.documentWrite

/-- Moving retrievals on concerns no record. -/
theorem alike_stir (env : Environment) (move : Schedule → Medium → Schedule × Medium) :
    env.Alike (env.stir move) := by
  obtain ⟨schedule, transport, h⟩ := env.stir_frame move
  rw [h]
  exact ⟨rfl, rfl, rfl, rfl, rfl, rfl, rfl, rfl⟩

/-- A relation of environments to outcomes that holds of the parts of all operations, save letting go
what is held back, and of parts that follow each other. -/
structure Composes (R : Environment → Except LoaderError Unit × Environment → Prop) : Prop where
  aside : ∀ {env env' : Environment}, env.Alike env' → R env (.ok (), env')
  /-- A refusal names no module. -/
  refused : ∀ (env : Environment) {e : LoaderError}, e.module? = none → R env (.error e, env)
  register : ∀ (env : Environment) (path : String), env.store.get? (env.specFor path).id = none →
    R env (.ok (), env.registered path)
  setLoaded : ∀ (env : Environment) (id : String), R env (.ok (), env.setLoaded id)
  complete : ∀ (env : Environment) (id : String) (result : Except RetrievalFailure String),
    R env (env.complete id result)
  trans : ∀ {env mid : Environment} {outcome : Except LoaderError Unit × Environment},
    R env (.ok (), mid) → R mid outcome → R env outcome

namespace Composes

variable {R : Environment → Except LoaderError Unit × Environment → Prop}

/-- Starting a retrieval concerns no record unless it is completed at once. -/
theorem start (h : Composes R) (env : Environment) (caller : Caller) (spec : ModuleSpec) :
    R env (env.recordStart caller spec).outcome := by
  cases hc : env.canStart caller with
  | false =>
    rw [recordStart, if_neg (by simp [hc])]
    exact h.refused env rfl
  | true =>
    rw [recordStart_outcome hc]
    unfold Environment.start
    split
    · exact h.aside ⟨rfl, rfl, rfl, rfl, rfl, rfl, rfl, rfl⟩
    · rename_i medium _
      have hlooked : env.Alike { env with transport := .serial (medium.lookUp spec.location).2 } :=
        ⟨rfl, rfl, rfl, rfl, rfl, rfl, rfl, rfl⟩
      exact h.trans (h.aside hlooked) (h.complete _ spec.id _)
    · exact h.refused env rfl

/-- Account is taken of an arrival once it was taken off the list. -/
theorem receive (h : Composes R) (env : Environment) (arrival : Arrival) (rest : List Arrival) :
    R env (env.receive arrival rest) := by
  have htaken : env.Alike { env with
      schedule := { env.schedule with arrived := rest }
      inFlight := env.inFlight - 1 } := ⟨rfl, rfl, rfl, rfl, rfl, rfl, rfl, rfl⟩
  exact h.trans (h.aside htaken) (h.complete _ arrival.id arrival.result)

/-- What holds of the parts of operations holds of them with any notes. -/
theorem assembles (h : Composes R) : Assembles fun env r => R env r.outcome where
  nothing env := h.aside ⟨rfl, rfl, rfl, rfl, rfl, rfl, rfl, rfl⟩
  refused env _ hnone := h.refused env hnone
  announce env level text := h.aside ⟨rfl, rfl, rfl, rfl, rfl, rfl, rfl, rfl⟩
  register := h.register
  hold env spec _ := h.aside ⟨rfl, rfl, rfl, rfl, rfl, rfl, rfl, rfl⟩
  setLoaded := h.setLoaded
  start := h.start
  receive {env arrival rest} _ := by
    rw [recordReceive_outcome]
    exact h.receive env arrival rest
  await env := by
    rw [await_eq_stir]
    exact h.aside (env.alike_stir Schedule.await)
  trans hfirst hnext := h.trans hfirst hnext

/-- The relation holds of the end of the phase in which modules are held back. -/
theorem documentReady (h : Composes R) (hrelease : ∀ env : Environment, R env (.ok (), env.released))
    (env : Environment) (caller : Caller) : R env (env.documentReady caller) := by
  rw [← recordDocumentReady_outcome]
  exact h.assembles.documentReady hrelease env caller

/-- The relation holds of loading on a host that retrieves. -/
theorem retrieveAll (h : Composes R) (env : Environment) (caller : Caller) (paths : List String) :
    R env (env.retrieveAll caller paths) := by
  rw [← recordRetrieveAll_outcome]
  exact h.assembles.retrieveAll env caller paths

/-- The relation holds of loading. -/
theorem loadWith (h : Composes R) (hrelease : ∀ env : Environment, R env (.ok (), env.released))
    (env : Environment) (caller : Caller) (paths : List String) (atOnce : Bool) :
    R env (env.loadWith caller paths atOnce) := by
  rw [← recordLoadWith_outcome]
  exact h.assembles.loadWith hrelease env caller paths atOnce

/-- The relation holds of settling. -/
theorem settling (h : Composes R) (env : Environment) : R env env.settling := by
  rw [← recordSettling_outcome]
  exact h.assembles.settling env

end Composes

end ModuleLoader.Environment
