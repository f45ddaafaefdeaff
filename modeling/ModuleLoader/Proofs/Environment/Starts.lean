import ModuleLoader.Proofs.Environment.Recording
import ModuleLoader.Proofs.Environment.Consistency

/-!
# Which retrievals are started

The retrievals that operations start are noted, each with the state that its module's record has at
that time.  Main statement: `Upright.run_asks`, the list of a run is just what a bundle is asked for
that serves one module at a time.
-/

set_option autoImplicit false

namespace ModuleLoader

/-- The module that an action settles whatever its state was. -/
def Action.forced? : Action → Option String
  | .setLoaded id => some id
  | .evalLoad path _ _ => some path
  | _ => none

namespace Environment

variable {env : Environment}

/-- A flush leaves the transport as it is. -/
theorem transport_flush (env : Environment) : env.flush.2.transport = env.transport := by
  obtain ⟨journal, progress, h⟩ := env.flush_frame
  rw [h]

/-- What given code changes: the record of its module, and what a flush changes. -/
theorem evalLoad_settles (h : env.acceptsCode = true) (path : String) (hasSourceMap : Bool)
    (code : String) : ∃ layer journal progress,
    let settled := { env with
      layer, journal, progress
      store := env.store.force path (.ofOutcome (env.outcomeOf path hasSourceMap code)) }
    (env.evalLoad path hasSourceMap code).2 = settled.flush.2 ∨
      (env.evalLoad path hasSourceMap code).2 = settled := by
  obtain ⟨journal, heval⟩ := evalLoad_eq h path hasSourceMap code
  rw [heval]
  cases env.outcomeOf path hasSourceMap code with
  | ok u => exact ⟨_, journal, _, .inl rfl⟩
  | error failure => exact ⟨_, journal, _, .inr rfl⟩

/-- Given code is not retrieved. -/
theorem record_evalLoad_starts (env : Environment) (path : String) (hasSourceMap : Bool)
    (code : String) : (env.record (.evalLoad path hasSourceMap code)).starts = [] := by
  simp only [record, Noted.unreported, recordEvalLoad, Noted.starts]
  split
  · rfl
  · split <;> rfl

/-! ## Requests -/

/-- A bundle that is asked for one module at a time has been asked just for the modules started. -/
def Asks {α : Type} (env : Environment) (r : Noted α) : Prop :=
  ∀ bundle, env.transport = .serial (.bundle bundle) → r.outcome.2.transport =
    .serial (.bundle { bundle with
      requests := bundle.requests ++ r.starts.map (·.spec.location) })

/-- Where no retrieval is started the bundle is not asked for anything. -/
theorem Asks.silent {α : Type} {outcome : Except LoaderError α × Environment}
    (h : ∀ bundle, env.transport = .serial (.bundle bundle) →
      outcome.2.transport = env.transport) : Asks env (.silent outcome) := by
  intro bundle ht
  show outcome.2.transport = .serial (.bundle { bundle with requests := bundle.requests ++ [] })
  rw [h bundle ht, ht, List.append_nil]

/-- What is asked for by two operations, one after the other, is what both together ask for. -/
theorem Asks.trans {mid : Environment} {notes : List Note} {r : Noted Unit}
    (h : Asks env (⟨(.ok (), mid), notes⟩ : Noted Unit)) (hnext : Asks mid r) :
    Asks env (⟨r.outcome, notes ++ r.notes⟩ : Noted Unit) := by
  intro bundle ht
  rw [Noted.starts_append, List.map_append, ← List.append_assoc]
  exact hnext _ (h bundle ht)

/-- Taking account of a retrieval starts none. -/
theorem recordComplete_starts (env : Environment) (id : String)
    (result : Except RetrievalFailure String) : (env.recordComplete id result).starts = [] := by
  unfold recordComplete
  split <;> rfl

/-- A retrieval that is started is a request. -/
theorem start_asks (env : Environment) (caller : Caller) (spec : ModuleSpec) :
    Asks env (env.recordStart caller spec) := by
  intro bundle ht
  unfold recordStart
  cases hc : env.canStart caller with
  | false =>
    simp [canStart, ht, Transport.isConcurrent] at hc
  | true =>
    have hnone := recordComplete_starts
      { env with transport := .serial ((Medium.bundle bundle).lookUp spec.location).2 } spec.id
      ((Medium.bundle bundle).lookUp spec.location).1
    have hstarts : ∀ {r : Noted Unit}, r.starts = [] →
        (⟨r.outcome, .started (env.startOf spec) :: r.notes⟩ : Noted Unit).starts =
          [env.startOf spec] := fun h => congrArg (env.startOf spec :: ·) h
    simp only [ht, if_true, recordComplete_outcome, transport_complete]
    rw [← recordComplete_outcome, hstarts hnone]
    rfl

/-- Of all parts of operations only the starts ask for anything. -/
theorem assembles_asks : Assembles fun env r => Asks env r where
  nothing _ := .silent fun _ _ => rfl
  refused _ _ _ := .silent fun _ _ => rfl
  announce _ _ _ := .silent fun _ _ => rfl
  register _ _ _ := .silent fun _ _ => rfl
  hold _ _ _ := .silent fun _ _ => rfl
  setLoaded _ _ := .silent fun _ _ => rfl
  start := start_asks
  receive {env arrival rest} _ := by
    intro bundle ht
    have hnone := recordComplete_starts { env with
      schedule := { env.schedule with arrived := rest }
      inFlight := env.inFlight - 1 } arrival.id arrival.result
    rw [recordReceive, hnone, recordComplete_outcome, transport_complete, List.map_nil,
      List.append_nil]
    exact ht
  await env := by
    refine .silent fun bundle ht => ?_
    simp only [await, ht]
  trans := .trans

/-- Letting go what is held back starts nothing by itself. -/
theorem released_asks (env : Environment) :
    Asks env (.silent (.ok (), env.released) : Noted Unit) := .silent fun _ _ => rfl

/-- Handing out a report asks for nothing. -/
theorem Asks.reporting {r : Noted Unit} (h : Asks env r) : Asks env r.reporting := by
  obtain ⟨⟨e | u, env'⟩, notes⟩ := r
  · exact h
  · obtain ⟨journal, hreport⟩ := env'.report_frame
    intro bundle ht
    simp only [Noted.reporting, hreport]
    exact h bundle ht

/-- Every action asks for what it starts, unless it exchanges the bundle. -/
theorem Upright.asks (h : env.Upright) {action : Action} (hs : ∀ content, action ≠ .supply content) :
    Asks env (env.record action) := by
  cases action with
  | load caller paths =>
    exact assembles_asks.loadWith released_asks env caller paths env.config.forceAsync
  | loadWith caller paths atOnce =>
    exact assembles_asks.loadWith released_asks env caller paths atOnce
  | documentReady caller => exact assembles_asks.documentReady released_asks env caller
  | setLoaded | rouse => exact .silent fun _ _ => rfl
  | evalLoad path hasSourceMap code =>
    have hsilent : Asks env (.silent (env.evalLoad path hasSourceMap code) : Noted Unit) := by
      refine .silent fun _ _ => ?_
      obtain ⟨layer, journal, progress, heval | heval⟩ :=
        evalLoad_settles h.retrieving.acceptsCode path hasSourceMap code
      · rw [heval]
        exact transport_flush _
      · rw [heval]
    intro bundle ht
    rw [record_evalLoad_starts]
    exact hsilent bundle ht
  | settle => exact (assembles_asks.settling env).reporting
  | turn n =>
    refine .silent fun bundle ht => ?_
    show (env.turn n).transport = _
    simp only [turn, ht]
  | supply content => exact absurd rfl (hs content)

/-- The requests of a run are the retrievals it starts: a bundle that is asked for one module at a
time, and is not exchanged, is asked for their locations, in order. -/
theorem Upright.run_asks (h : env.Upright) {actions : List Action}
    (hall : ∀ action ∈ actions, ∀ content, action ≠ .supply content) {bundle : Bundle}
    (ht : env.transport = .serial (.bundle bundle)) :
    (env.run actions).2.transport = .serial (.bundle { bundle with
      requests := bundle.requests ++ (env.started actions).map (·.spec.location) }) := by
  induction actions generalizing env bundle with
  | nil =>
    show env.transport = .serial (.bundle { bundle with requests := bundle.requests ++ [] })
    rw [List.append_nil]
    exact ht
  | cons action actions ih =>
    have hfirst := h.asks (hall action List.mem_cons_self) bundle ht
    rw [record_outcome] at hfirst
    rw [started_cons, List.map_append, ← List.append_assoc]
    exact ih (h.perform action) (fun a ha => hall a (List.mem_cons_of_mem _ ha)) hfirst

end Environment

end ModuleLoader
