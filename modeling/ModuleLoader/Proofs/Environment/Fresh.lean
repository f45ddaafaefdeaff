import ModuleLoader.Proofs.Environment.Transit

/-!
# New environments

What holds of an environment before anything was done to it: nothing is registered, in transit or
under way, and every permit is free.
-/

set_option autoImplicit false

namespace ModuleLoader

/-- A valid configuration allows at least one retrieval at a time. -/
theorem Configuration.maxConcurrency_pos {c : Configuration} (h : c.validate = .ok ()) :
    0 < c.maxConcurrency := by
  unfold Configuration.validate at h
  split at h
  · cases h
  · rename_i hnone
    by_contra hzero
    have heq : c.maxConcurrency = 0 := by omega
    simp only [Configuration.fault?, heq, if_true] at hnone
    split at hnone <;> cases hnone

namespace Host

/-- A host that retrieves modules has a way to. -/
theorem retrieval_of_behavior (h : Host) (hb : h.profile.behavior = .retrieve) :
    h.profile.retrieval ≠ .none := by
  cases h <;> first | decide | cases hb

/-- A host that holds modules back goes on after failures. -/
theorem policy_of_documentWrite (h : Host) (hd : h.profile.documentWrite = true) :
    h.profile.policy = .failForward := by
  cases h <;> first | decide | cases hd

end Host

namespace Environment

/-- An environment that was built and not used yet. -/
structure Fresh (env : Environment) : Prop where
  store : env.store = .empty
  order : env.order = .initial
  layer : ∃ engine, env.layer = .make engine
  documentWrite : env.documentWrite = (env.profile.documentWrite && !env.config.forceAsync)
  pendingWrites : env.pendingWrites = []
  schedule : env.schedule = .idle env.config.maxConcurrency
  inFlight : env.inFlight = 0
  progress : env.progress = ⟨[], []⟩
  concurrency : 0 < env.config.maxConcurrency
  transport : env.profile.retrieval ≠ .none → env.transport ≠ .none
  /-- A location given beforehand is given under the id of its module. -/
  named : ∀ id spec, env.specs.get? id = some spec → spec.id = id

/-- What is made is new, has the configuration it was made with, and the transport chosen for its
host. -/
theorem fresh_of_make {config : Configuration} {transport : Transport} {engine : Script.Engine}
    {env : Environment} (h : make config transport engine = .ok env) :
    env.Fresh ∧ env.config = config ∧ chooseTransport config.host transport = .ok env.transport := by
  unfold make at h
  cases hv : config.validate with
  | error e => simp [hv] at h
  | ok u =>
    cases ht : chooseTransport config.host transport with
    | error e => simp [hv, ht] at h
    | ok t =>
      simp only [hv, ht, Except.ok.injEq] at h
      subst h
      refine ⟨⟨rfl, rfl, ⟨_, rfl⟩, rfl, rfl, rfl, rfl, rfl, config.maxConcurrency_pos hv, ?_, ?_⟩, rfl,
        rfl⟩
      · intro hr hn
        unfold chooseTransport at ht
        split at ht
        · rename_i hnone
          exact hr hnone
        · cases ht
        · rename_i hnot _
          simp only [Except.ok.injEq] at ht
          exact hnot (ht.trans hn)
      · intro id spec hs
        cases hs

/-- Modules are evaluated in a new namespace on the engine that an environment was built on. -/
theorem layer_of_make {config : Configuration} {transport : Transport} {engine : Script.Engine}
    {env : Environment} (h : make config transport engine = .ok env) :
    env.layer = .make (readyEngine config.host.profile engine) := by
  unfold make at h
  cases hv : config.validate with
  | error e => simp [hv] at h
  | ok u =>
    cases ht : chooseTransport config.host transport with
    | error e => simp [hv, ht] at h
    | ok t =>
      simp only [hv, ht, Except.ok.injEq] at h
      subst h
      rfl

/-- An environment stays new when it is told where modules are. -/
theorem Fresh.withSpecs {env : Environment} (h : env.Fresh) (specs : List ModuleSpec) :
    (env.withSpecs specs).Fresh where
  store := h.store
  order := h.order
  layer := h.layer
  documentWrite := h.documentWrite
  pendingWrites := h.pendingWrites
  schedule := h.schedule
  inFlight := h.inFlight
  progress := h.progress
  concurrency := h.concurrency
  transport := h.transport
  named := by
    have hall : ∀ (specs : List ModuleSpec) (t : Table ModuleSpec),
        (∀ id spec, t.get? id = some spec → spec.id = id) →
        ∀ id spec, (t.setAll (specs.map fun spec => (spec.id, spec))).get? id = some spec →
          spec.id = id := by
      intro specs
      induction specs with
      | nil => exact fun t ht => ht
      | cons first specs ih =>
        intro t ht
        refine ih (t.set first.id first) ?_
        intro id spec hs
        rw [Table.get?_set] at hs
        split at hs
        · rename_i he
          cases hs
          exact he.symm
        · exact ht id spec hs
    exact hall specs env.specs h.named

/-- Where a module is, is told under its id. -/
theorem id_specFor {env : Environment}
    (h : ∀ id spec, env.specs.get? id = some spec → spec.id = id) (id : String) :
    (env.specFor id).id = id := by
  unfold specFor
  cases hs : env.specs.get? id with
  | none => rfl
  | some spec => exact h id spec hs

/-- Modules are loaded under the ids asked for. -/
theorem map_id_specFor {env : Environment} (h : ∀ id, (env.specFor id).id = id)
    (ids : List String) : (ids.map env.specFor).map (·.id) = ids := by
  rw [List.map_map]
  exact (List.map_congr_left fun id _ => h id).trans (List.map_id _)

/-- In a new environment nothing is in flight, and all permits are free. -/
theorem Fresh.flight {env : Environment} (h : env.Fresh) : env.Flight where
  permits := by
    rw [h.schedule]
    exact Schedule.sound_idle _
  inFlight := by
    rw [h.inFlight, h.schedule]
    rfl
  alone _ := h.inFlight
  held _ := h.pendingWrites

/-- A new environment of a host that retrieves modules can do so. -/
theorem Fresh.retrieving {env : Environment} (h : env.Fresh)
    (hb : env.profile.behavior = .retrieve) : env.Retrieving where
  behavior := hb
  transport := h.transport (env.host.retrieval_of_behavior hb)
  held hd := by
    rw [h.documentWrite, Bool.and_eq_true] at hd
    exact env.host.policy_of_documentWrite hd.1

/-- A browser's environment retrieves, and goes on after failures. -/
theorem Fresh.browser {env : Environment} (h : env.Fresh) (hhost : env.host = .browser) :
    env.Retrieving ∧ env.profile.policy = .failForward := by
  have hprofile : env.profile = Host.browser.profile := by rw [Environment.profile, hhost]
  constructor
  · apply h.retrieving
    rw [hprofile]
    rfl
  · rw [hprofile]
    rfl

/-- In a new environment nothing is in transit. -/
theorem Fresh.accounted {env : Environment} (h : env.Fresh) (log : Log) :
    Moment.Accounted ⟨env, [], log⟩ := by
  have hnone : Moment.transit ⟨env, [], log⟩ = [] := by
    simp [Moment.transit, h.pendingWrites, h.schedule, Schedule.idle, Schedule.outstanding]
  refine ⟨?_, ?_, ?_⟩
  · rw [hnone]
    exact .nil
  · rw [hnone]
    simp
  · rintro id ⟨record, hr, -⟩
    rw [h.store] at hr
    cases hr

end Environment

end ModuleLoader
