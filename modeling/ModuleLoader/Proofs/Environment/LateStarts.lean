import ModuleLoader.Proofs.Environment.Composition
import ModuleLoader.Proofs.Environment.Settling
import ModuleLoader.Proofs.Environment.Waiting

/-!
# Retrievals started too late

A module that is loaded at once is requested when its retrieval is started.  A module that was held
back is started in whatever state it is in when the document becomes ready.  Main statement:
`run_starts_settled_iff`, a retrieval is started for a settled module just when the module was
counted as loaded, or given as code, while it was held back, and the document became ready later.
-/

set_option autoImplicit false

namespace ModuleLoader

namespace Environment

/-! ## Operations -/

variable {env : Environment}

/-- A start that is carried out is noted, with the state of the module's record. -/
theorem recordStart_starts (ht : env.transport ≠ .none) {caller : Caller}
    (hc : env.canStart caller = true) (spec : ModuleSpec) :
    (env.recordStart caller spec).starts = [env.startOf spec] := by
  rw [recordStart, if_pos hc]
  cases htransport : env.transport with
  | concurrent medium => rfl
  | serial medium =>
    exact congrArg (env.startOf spec :: ·) (recordComplete_starts _ spec.id _)
  | none => exact absurd htransport ht

/-- Nothing is noted of a start but the start itself. -/
theorem eq_startOf_of_mem {caller : Caller} {spec : ModuleSpec} {start : Start}
    (h : start ∈ (env.recordStart caller spec).starts) : start = env.startOf spec := by
  by_cases hc : env.canStart caller = true
  · by_cases ht : env.transport = .none
    · rw [recordStart, if_pos hc, ht] at h
      cases h
    · rw [recordStart_starts ht hc] at h
      exact List.mem_singleton.1 h
  · rw [recordStart, if_neg hc] at h
    cases h

/-- The starts of two operations, one after the other, unless the first fails. -/
theorem starts_andThen_of_ok {r : Noted Unit} {env' : Environment}
    (h : r.outcome = (.ok (), env')) (next : Environment → Noted Unit) :
    (r.andThen next).starts = r.starts ++ (next env').starts := by
  simp only [Noted.andThen, h]
  exact Noted.starts_append _ _ _

/-- The starts of two operations are among those of the first and those of the second. -/
theorem mem_starts_andThen {r : Noted Unit} {next : Environment → Noted Unit} {start : Start}
    (h : start ∈ (r.andThen next).starts) :
    start ∈ r.starts ∨ start ∈ (next r.outcome.2).starts := by
  rcases hr : r.outcome with ⟨e | u, env'⟩
  · simp only [Noted.andThen, hr] at h
    exact .inl h
  · rw [starts_andThen_of_ok hr] at h
    exact List.mem_append.1 h

/-- Where nothing is started later, the starts are those of the first operation. -/
theorem starts_andThen_of_none {r : Noted Unit} {next : Environment → Noted Unit}
    (h : ∀ env', (next env').starts = []) : (r.andThen next).starts = r.starts := by
  rcases hr : r.outcome with ⟨e | u, env'⟩
  · simp only [Noted.andThen, hr]
  · rw [starts_andThen_of_ok hr, h, List.append_nil]

/-- Taking account of what has arrived starts nothing. -/
theorem recordDrain_starts (env : Environment) : env.recordDrain.starts = [] := by
  unfold recordDrain
  induction env.schedule.arrived generalizing env with
  | nil => rfl
  | cons arrival rest ih =>
    rw [recordReceiveAll, starts_andThen_of_none ih]
    exact recordComplete_starts _ arrival.id arrival.result

/-- Waiting for arrivals starts nothing. -/
theorem recordSettleAll_starts (env : Environment) : env.recordSettleAll.starts = [] := by
  fun_induction recordSettleAll env with
  | case1 env hzero => rfl
  | case2 env hne harr => rfl
  | case3 env hne arrival rest harr e env' hr => exact recordComplete_starts _ arrival.id _
  | case4 env hne arrival rest harr env' hr ih =>
    have hfirst : (env.await.recordReceive arrival rest).starts = [] :=
      recordComplete_starts _ arrival.id arrival.result
    unfold Noted.starts at hfirst ih
    rw [Noted.starts_append, hfirst, ih]
    rfl

/-- Where loading goes on after failures, all modules let go are started, in the states in which they
were. -/
theorem recordStartAll_starts (ht : env.transport ≠ .none)
    (hf : env.profile.policy = .failForward) {caller : Caller} (hc : env.canStart caller = true)
    {specs : List ModuleSpec} {log : Log} (ha : Moment.Accounted ⟨env, specs, log⟩)
    (hw : Moment.Waiting ⟨env, specs, log⟩) :
    (env.recordStartAll caller specs).starts = specs.map env.startOf := by
  induction specs generalizing env with
  | nil => rfl
  | cons spec specs ih =>
    have hl := start_leads .insideEventLoop ht spec specs
    have hok := hl.ok hf rfl
    have hk := hl.kept
    have hguarded := env.guarded_start spec
    obtain ⟨asked, hasked, hsteps⟩ := hl.steps
    have hnext := (hsteps log).preserved ha hw
    rw [hasked hok, Log.asking_nil] at hnext
    have houtcome := recordStart_outcome hc spec
    rcases hs : env.start spec with ⟨answer, env'⟩
    rw [hs] at hok hk hnext houtcome hguarded
    cases hok
    have hlater : (env'.recordStartAll caller specs).starts = specs.map env'.startOf := by
      refine ih (fun hn => ht (hk.transport.1 hn)) ?_ ((hguarded.canStart caller).trans hc)
        hnext.accounted hnext.waiting
      rw [hk.profile]
      exact hf
    have hsame : specs.map env'.startOf = specs.map env.startOf := by
      refine List.map_congr_left fun other hother => ?_
      have hheld : other.id ∈ Moment.heldBack ⟨env', specs, log⟩ :=
        List.mem_map_of_mem (List.mem_append_left _ hother)
      have hheld' : other.id ∈ Moment.heldBack ⟨env, spec :: specs, log⟩ :=
        List.mem_map_of_mem (List.mem_append_left _ (List.mem_cons_of_mem _ hother))
      have hknown := ha.known _ (Moment.heldBack_subset_transit _ hheld')
      have hget := ((hnext.heldBack _ hheld).resolve_right fun hnew => hknown hnew.1).2
      simp only [startOf, ModuleStore.state?]
      exact congrArg (fun r => Start.mk other (r.map (·.state))) hget
    rw [recordStartAll, starts_andThen_of_ok houtcome, recordStart_starts ht hc, hlater, hsame]
    rfl

/-- A module that is introduced is started in the state in which it is registered. -/
theorem introduce_requested {spec : ModuleSpec} {state : ModuleState}
    (h : env.store.state? spec.id = some state) (caller : Caller) :
    ∀ start ∈ (env.recordIntroduce caller spec).starts, start.state = some state := by
  obtain ⟨journal, -, hannounce⟩ := env.announce_of_debug ("load: " ++ spec.id)
  simp only [recordIntroduce, hannounce]
  split
  · nofun
  · intro start hstart
    rw [eq_startOf_of_mem hstart]
    exact h

/-- A module that is loaded at once is requested when its retrieval is started. -/
theorem recordRegister_requested (env : Environment) (caller : Caller) (paths : List String) :
    ∀ start ∈ (env.recordRegister caller paths).starts, start.state = some .requested := by
  induction paths generalizing env with
  | nil => nofun
  | cons path paths ih =>
    intro start hstart
    by_cases hnew : env.store.get? (env.specFor path).id = none
    · rw [recordRegister_cons_new env caller paths hnew] at hstart
      rcases mem_starts_andThen hstart with hs | hs
      · refine introduce_requested ?_ caller start hs
        rw [ModuleStore.state?, ModuleStore.get?_ensure, if_pos ⟨rfl, hnew⟩]
        rfl
      · exact ih _ start hs
    · rw [recordRegister_cons_known env caller paths hnew] at hstart
      exact ih env start hstart

/-- Settling starts nothing. -/
theorem record_settle_starts (env : Environment) : (env.record .settle).starts = [] := by
  have hnone : (env.recordDrain.andThen recordSettleAll).starts = [] := by
    rw [starts_andThen_of_none recordSettleAll_starts, recordDrain_starts]
  rw [record]
  rcases hr : (env.recordDrain.andThen recordSettleAll).outcome with ⟨e | u, env'⟩ <;>
    · simp only [Noted.reporting, hr]
      exact hnone

/-- Modules that are loaded are requested when their retrievals are started. -/
theorem recordRetrieveAll_requested (env : Environment) (caller : Caller) (paths : List String) :
    ∀ start ∈ (env.recordRetrieveAll caller paths).starts, start.state = some .requested := by
  unfold recordRetrieveAll
  split
  · nofun
  · rw [starts_andThen_of_none recordDrain_starts]
    exact env.recordRegister_requested caller paths

/-! ## Modules that are held back although they are settled -/

/-- What holds between any two actions of an environment that retrieves modules, of the modules in
transit too. -/
structure Orderly (env : Environment) : Prop where
  upright : env.Upright
  waiting : Moment.Waiting ⟨env, [], .empty⟩

/-- The module is held back although it is settled. -/
def HeldSettled (env : Environment) (id : String) : Prop :=
  id ∈ env.pendingWrites.map (·.id) ∧ env.store.Settled id

/-- The retrieval of the module is among some that are started, and comes too late. -/
def StartsLate (starts : List Start) (id : String) : Prop :=
  ∃ start ∈ starts, start.spec.id = id ∧ start.isLate = true

/-- No retrieval comes too late that is started while its module is requested. -/
theorem not_startsLate {starts : List Start}
    (h : ∀ start ∈ starts, start.state = some .requested) (id : String) :
    ¬ StartsLate starts id := by
  rintro ⟨start, hs, -, hlate⟩
  rw [Start.isLate, h start hs] at hlate
  cases hlate

/-- A retrieval comes too late among some or among others. -/
theorem startsLate_append (starts more : List Start) (id : String) :
    StartsLate (starts ++ more) id ↔ StartsLate starts id ∨ StartsLate more id := by
  simp only [StartsLate, List.mem_append, or_and_right, exists_or]

/-- Only in a document that is not ready is a settled module held back. -/
theorem HeldSettled.documentWrite (hf : env.Flight) {id : String} (h : env.HeldSettled id) :
    env.documentWrite = true := by
  by_contra hd
  rw [Bool.not_eq_true] at hd
  have hmem := h.1
  rw [hf.held hd] at hmem
  cases hmem

/-- Of all parts of operations only letting go ends the phase in which modules are held back. -/
theorem composes_documentWrite :
    Composes fun env outcome => outcome.2.documentWrite = env.documentWrite where
  aside ha := ha.documentWrite
  refused _ _ _ := rfl
  register _ _ _ := rfl
  setLoaded _ _ := rfl
  complete env id result := by
    obtain ⟨store, order, layer, journal, progress, h⟩ := env.complete_frame id result
    rw [h]
  trans hfirst hnext := hnext.trans hfirst

/-- When the document becomes ready, all modules held back are started, unless it was before, or
retrievals cannot be started. -/
theorem Orderly.documentReady_starts (h : env.Orderly) (caller : Caller) :
    ((env.recordDocumentReady caller).starts = [] ∧
      (env.documentReady caller).2.documentWrite = env.documentWrite) ∨
    ((env.recordDocumentReady caller).starts = env.pendingWrites.map env.startOf ∧
      (env.documentReady caller).2.documentWrite = false) := by
  by_cases hd : env.documentWrite = true
  · by_cases hc : env.canStart caller = true
    · right
      have hstep : Moment.Step ⟨env, [], .empty⟩ ⟨env.released, env.pendingWrites, .empty⟩ := by
        have hrelease := Moment.Step.release env [] .empty
        rwa [List.append_nil] at hrelease
      constructor
      · simp only [recordDocumentReady, hd, hc, Bool.not_true, Bool.false_eq_true, if_false]
        rw [starts_andThen_of_none recordDrain_starts]
        exact @recordStartAll_starts env.released h.upright.retrieving.transport
          (h.upright.retrieving.held hd) caller hc env.pendingWrites .empty
          (hstep.accounted h.upright.accounted) (hstep.waiting_after h.upright.accounted h.waiting)
      · rw [documentReady_of_held hd hc]
        exact (release_leads caller h.upright.retrieving hd).kept.released rfl
    · left
      constructor
      · simp [recordDocumentReady, hd, hc, Noted.silent, Noted.starts]
      · simp [Environment.documentReady, hd, hc]
  · left
    constructor
    · simp [recordDocumentReady, hd, Noted.silent, Noted.starts]
    · simp [Environment.documentReady, hd]

/-- A module that is held back waits for its retrieval, or was settled without it. -/
theorem Orderly.waits (h : env.Orderly) {spec : ModuleSpec} (hs : spec ∈ env.pendingWrites) :
    env.store.Waits spec.id :=
  h.waiting spec.id (Moment.heldBack_subset_transit _ (List.mem_map_of_mem hs))

/-- The modules let go when the document becomes ready are started late if they are settled. -/
theorem Orderly.documentReady_startsLate (h : env.Orderly) (caller : Caller) (id : String) :
    StartsLate (env.recordDocumentReady caller).starts id ↔
      env.HeldSettled id ∧ (env.documentReady caller).2.documentWrite = false := by
  rcases h.documentReady_starts caller with ⟨hstarts, hsame⟩ | ⟨hstarts, hready⟩
  · rw [hstarts, hsame]
    constructor
    · rintro ⟨start, hs, -⟩
      cases hs
    · rintro ⟨hheld, hd⟩
      rw [hheld.documentWrite h.upright.flight] at hd
      cases hd
  · rw [hstarts, hready]
    constructor
    · rintro ⟨start, hs, rfl, hlate⟩
      obtain ⟨spec, hmem, rfl⟩ := List.mem_map.1 hs
      exact ⟨⟨List.mem_map_of_mem hmem,
        (ModuleStore.isTerminal_iff_settled (h.waits hmem)).1 hlate⟩, rfl⟩
    · rintro ⟨⟨hmem, hsettled⟩, -⟩
      obtain ⟨spec, hs, rfl⟩ := List.mem_map.1 hmem
      exact ⟨env.startOf spec, List.mem_map_of_mem hs, rfl,
        (ModuleStore.isTerminal_iff_settled (h.waits hs)).2 hsettled⟩

/-- The retrievals started when the document is ready are those of requested modules, or come too
late. -/
theorem Orderly.documentReady_requested (h : env.Orderly) (caller : Caller) :
    ∀ start ∈ (env.recordDocumentReady caller).starts,
      start.state = some .requested ∨ start.isLate = true := by
  intro start hstart
  rcases h.documentReady_starts caller with ⟨hstarts, -⟩ | ⟨hstarts, -⟩
  · rw [hstarts] at hstart
    cases hstart
  · rw [hstarts] at hstart
    obtain ⟨spec, hmem, rfl⟩ := List.mem_map.1 hstart
    rcases h.waits hmem with ⟨record, hr, hs⟩ | hsettled
    · left
      rw [startOf, ModuleStore.state?, hr, Option.map_some, hs]
    · exact .inr ((ModuleStore.isTerminal_iff_settled (h.waits hmem)).2 hsettled)

/-- Loading starts the retrieval of a module too late just when the module is held back although
settled and is let go. -/
theorem Orderly.loadWith_startsLate (h : env.Orderly) (caller : Caller) (paths : List String)
    (atOnce : Bool) (id : String) :
    StartsLate (env.recordLoadWith caller paths atOnce).starts id ↔
      env.HeldSettled id ∧ (env.loadWith caller paths atOnce).2.documentWrite = false := by
  have hsame : ∀ env : Environment,
      (env.retrieveAll caller paths).2.documentWrite = env.documentWrite := fun env =>
    composes_documentWrite.retrieveAll env caller paths
  have hrequested : ∀ env : Environment,
      ¬ StartsLate (env.recordRetrieveAll caller paths).starts id :=
    fun env => not_startsLate (env.recordRetrieveAll_requested caller paths) id
  unfold recordLoadWith loadWith
  rw [h.upright.retrieving.behavior]
  simp only
  split
  · have hready := h.documentReady_startsLate caller id
    have houtcome := env.recordDocumentReady_outcome caller
    rcases hout : env.documentReady caller with ⟨e | u, env'⟩
    · rw [hout] at hready houtcome
      simp only [Noted.andThen, houtcome]
      exact hready
    · rw [hout] at hready houtcome
      show _ ↔ env.HeldSettled id ∧ (env'.retrieveAll caller paths).2.documentWrite = false
      rw [starts_andThen_of_ok houtcome, startsLate_append, hsame, hready]
      exact or_iff_left (hrequested env')
  · rw [hsame]
    refine iff_of_false (hrequested env) ?_
    rintro ⟨hheld, hd⟩
    rw [hheld.documentWrite h.upright.flight] at hd
    cases hd

/-- The retrievals started in loading are those of requested modules, or come too late. -/
theorem Orderly.loadWith_requested (h : env.Orderly) (caller : Caller) (paths : List String)
    (atOnce : Bool) : ∀ start ∈ (env.recordLoadWith caller paths atOnce).starts,
      start.state = some .requested ∨ start.isLate = true := by
  intro start hstart
  unfold recordLoadWith at hstart
  rw [h.upright.retrieving.behavior] at hstart
  simp only at hstart
  split at hstart
  · rcases mem_starts_andThen hstart with hs | hs
    · exact h.documentReady_requested caller start hs
    · exact .inl (Environment.recordRetrieveAll_requested _ caller paths start hs)
  · exact .inl (env.recordRetrieveAll_requested caller paths start hstart)

/-! ## Actions -/

/-- A flush does not make the document ready. -/
theorem documentWrite_flush (env : Environment) : env.flush.2.documentWrite = env.documentWrite := by
  obtain ⟨journal, progress, h⟩ := env.flush_frame
  rw [h]

/-- Settling does not make the document ready. -/
theorem documentWrite_settle (env : Environment) :
    (env.perform .settle).2.documentWrite = env.documentWrite := by
  have hsettling := composes_documentWrite.settling env
  rcases hs : env.settling with ⟨e | u, env'⟩
  · rw [hs] at hsettling
    rw [perform, settle_of_error hs]
    exact hsettling
  · rw [hs] at hsettling
    obtain ⟨journal, hreport⟩ := env'.report_frame
    rw [perform, settle_of_ok hs, hreport]
    exact hsettling

/-- Given code does not make the document ready. -/
theorem documentWrite_evalLoad (h : env.acceptsCode = true) (path : String) (hasSourceMap : Bool)
    (code : String) :
    (env.evalLoad path hasSourceMap code).2.documentWrite = env.documentWrite := by
  obtain ⟨layer, journal, progress, heval | heval⟩ := evalLoad_settles h path hasSourceMap code
  · rw [heval]
    exact documentWrite_flush _
  · rw [heval]

/-- An action starts the retrieval of a module too late just when the module is held back although
settled and is let go. -/
theorem Orderly.startsLate (h : env.Orderly) (action : Action) (id : String) :
    StartsLate (env.record action).starts id ↔
      env.HeldSettled id ∧ (env.perform action).2.documentWrite = false := by
  have hnone : (env.perform action).2.documentWrite = env.documentWrite →
      (StartsLate [] id ↔ env.HeldSettled id ∧ (env.perform action).2.documentWrite = false) := by
    intro hsame
    rw [hsame]
    constructor
    · rintro ⟨start, hs, -⟩
      cases hs
    · rintro ⟨hheld, hd⟩
      rw [hheld.documentWrite h.upright.flight] at hd
      cases hd
  cases action with
  | load caller paths => exact h.loadWith_startsLate caller paths env.config.forceAsync id
  | loadWith caller paths atOnce => exact h.loadWith_startsLate caller paths atOnce id
  | documentReady caller => exact h.documentReady_startsLate caller id
  | setLoaded | rouse => exact hnone rfl
  | evalLoad path hasSourceMap code =>
    rw [record_evalLoad_starts]
    exact hnone (documentWrite_evalLoad h.upright.retrieving.acceptsCode path hasSourceMap code)
  | settle =>
    rw [record_settle_starts]
    exact hnone env.documentWrite_settle
  | turn n =>
    refine hnone ?_
    show (env.turn n).documentWrite = _
    obtain ⟨schedule, transport, hstir⟩ :=
      env.stir_frame fun schedule medium => schedule.turn medium n
    rw [turn_eq_stir, hstir]
  | supply content =>
    refine hnone ?_
    show (env.supply content).documentWrite = _
    obtain ⟨transport, hs, -⟩ := env.supply_frame content
    rw [hs]

/-- An environment stays orderly when an outcome is forced on a module. -/
theorem Orderly.force (h : env.Orderly) (id : String) (result : Except EvaluationFailure Unit)
    (layer : Namespace.Layer) (journal : Journal) (progress : Progress) :
    { env with
      layer, journal, progress
      store := env.store.force id (.ofOutcome result) }.Orderly where
  upright := h.upright.force id result layer journal progress
  waiting other hother := (h.waiting other hother).force id result

/-- An environment stays orderly over a flush. -/
theorem Orderly.flush (h : env.Orderly) : env.flush.2.Orderly where
  upright := h.upright.flush
  waiting := by
    have hfollows := env.follows_flush
    obtain ⟨journal, progress, hflush⟩ := env.flush_frame
    rw [hflush] at hfollows ⊢
    intro id hid
    have hwaits := h.waiting id hid
    exact (ModuleStore.Waits.congr (hfollows.get?_of_waits hwaits)).2 hwaits

/-- An environment stays orderly when what code is retrieved from is exchanged. -/
theorem Orderly.supply (h : env.Orderly) (content : Medium) : (env.supply content).Orderly where
  upright := h.upright.supply content
  waiting := by
    obtain ⟨transport, hs, -⟩ := env.supply_frame content
    rw [hs]
    exact h.waiting

/-- An environment stays orderly over every action. -/
theorem Orderly.perform (h : env.Orderly) (action : Action) : (env.perform action).2.Orderly := by
  have hloading : action.isLoading = true → (env.perform action).2.Orderly := by
    intro hl
    obtain ⟨asked, -, hsteps⟩ := (perform_steps h.upright.retrieving hl).1
    exact ⟨h.upright.perform action,
      ((hsteps .empty).preserved h.upright.accounted h.waiting).waiting⟩
  cases action with
  | load | loadWith | documentReady | settle | turn | rouse => exact hloading rfl
  | setLoaded id => exact h.force id (.ok ()) env.layer env.journal env.progress
  | evalLoad path hasSourceMap code =>
    show (env.evalLoad path hasSourceMap code).2.Orderly
    obtain ⟨layer, journal, progress, heval | heval⟩ :=
      evalLoad_settles h.upright.retrieving.acceptsCode path hasSourceMap code
    · rw [heval]
      exact (h.force path _ layer journal progress).flush
    · rw [heval]
      exact h.force path _ layer journal progress
  | supply content => exact h.supply content

/-- A module that is settled by force stays held back if it was. -/
theorem heldSettled_force {env' : Environment} {path : String}
    {result : Except EvaluationFailure Unit} (hp : env'.pendingWrites = env.pendingWrites)
    (hs : env'.store = env.store.force path (.ofOutcome result)) (id : String) :
    env'.HeldSettled id ↔
      env.HeldSettled id ∨ (some path = some id ∧ id ∈ env.pendingWrites.map (·.id)) := by
  unfold HeldSettled
  rw [hp, hs]
  by_cases he : id = path
  · rw [he]
    constructor
    · exact fun hheld => .inr ⟨rfl, hheld.1⟩
    · rintro (⟨hmem, -⟩ | ⟨-, hmem⟩) <;> exact ⟨hmem, env.store.settled_force path result⟩
  · rw [ModuleStore.Settled.congr (env.store.get?_force_of_ne _ he)]
    simp [Ne.symm he]

/-- A flush settles no module that is held back. -/
theorem Orderly.heldSettled_flush (h : env.Orderly) (id : String) :
    env.flush.2.HeldSettled id ↔ env.HeldSettled id := by
  have hfollows := env.follows_flush
  obtain ⟨journal, progress, hflush⟩ := env.flush_frame
  rw [hflush] at hfollows ⊢
  refine and_congr_right fun hmem => ?_
  have hwaits := h.waiting id (Moment.heldBack_subset_transit _ hmem)
  exact ModuleStore.Settled.congr (hfollows.get?_of_waits hwaits)

/-- Loading keeps the modules held back as they are, unless it lets them go. -/
theorem Orderly.heldSettled_loading (h : env.Orderly) {action : Action}
    (hl : action.isLoading = true) (id : String) :
    (env.perform action).2.HeldSettled id ↔
      (env.perform action).2.documentWrite = true ∧ env.HeldSettled id := by
  obtain ⟨asked, -, hsteps⟩ := (perform_steps h.upright.retrieving hl).1
  have hpreserved := (hsteps .empty).preserved h.upright.accounted h.waiting
  constructor
  · intro hheld
    refine ⟨hheld.documentWrite (h.perform action).upright.flight, ?_⟩
    rcases hpreserved.heldBack id hheld.1 with ⟨hmem, hsame⟩ | ⟨-, hrequested⟩
    · exact ⟨hmem, (ModuleStore.Settled.congr hsame).1 hheld.2⟩
    · exact absurd hheld.2 hrequested.not_settled
  · rintro ⟨hd, hmem, hsettled⟩
    have hmem' : id ∈ (env.perform action).2.pendingWrites.map (·.id) :=
      List.map_subset _ (hpreserved.pending hd) hmem
    have hknown := hsettled
    obtain ⟨record, hr, -⟩ := hknown
    have hsame := ((hpreserved.heldBack id hmem').resolve_right fun hnew => by
      rw [hnew.1] at hr
      cases hr).2
    exact ⟨hmem', (ModuleStore.Settled.congr hsame).2 hsettled⟩

/-- After an action a module is held back although it is settled if it was before, or if the action
settles it by force. -/
theorem Orderly.heldSettled (h : env.Orderly) (action : Action) (id : String) :
    (env.perform action).2.HeldSettled id ↔ (env.perform action).2.documentWrite = true ∧
      (env.HeldSettled id ∨ (action.forced? = some id ∧ id ∈ env.pendingWrites.map (·.id))) := by
  have hnext := h.perform action
  have hloading : action.isLoading = true → action.forced? = none →
      ((env.perform action).2.HeldSettled id ↔ (env.perform action).2.documentWrite = true ∧
        (env.HeldSettled id ∨ (action.forced? = some id ∧ id ∈ env.pendingWrites.map (·.id)))) := by
    intro hl hnone
    rw [h.heldSettled_loading hl, hnone]
    simp
  -- A module can only be held back where the phase has not ended.
  have hforcing : ((env.perform action).2.HeldSettled id ↔
      env.HeldSettled id ∨ (action.forced? = some id ∧ id ∈ env.pendingWrites.map (·.id))) →
      ((env.perform action).2.HeldSettled id ↔ (env.perform action).2.documentWrite = true ∧
        (env.HeldSettled id ∨ (action.forced? = some id ∧ id ∈ env.pendingWrites.map (·.id)))) := by
    intro hiff
    rw [← hiff]
    exact ⟨fun hheld => ⟨hheld.documentWrite hnext.upright.flight, hheld⟩, fun hheld => hheld.2⟩
  cases action with
  | load | loadWith | documentReady | settle | turn | rouse => exact hloading rfl rfl
  | setLoaded other =>
    exact hforcing (@heldSettled_force env (env.setLoaded other) other (.ok ()) rfl rfl id)
  | evalLoad path hasSourceMap code =>
    apply hforcing
    show (env.evalLoad path hasSourceMap code).2.HeldSettled id ↔ _
    obtain ⟨layer, journal, progress, heval | heval⟩ :=
      evalLoad_settles h.upright.retrieving.acceptsCode path hasSourceMap code
    · rw [heval, (h.force path _ layer journal progress).heldSettled_flush]
      exact @heldSettled_force env { env with
        layer, journal, progress
        store := env.store.force path _ } path (env.outcomeOf path hasSourceMap code) rfl rfl id
    · rw [heval]
      exact @heldSettled_force env { env with
        layer, journal, progress
        store := env.store.force path _ } path (env.outcomeOf path hasSourceMap code) rfl rfl id
  | supply content =>
    apply hforcing
    show (env.supply content).HeldSettled id ↔ _
    obtain ⟨transport, hs, -⟩ := env.supply_frame content
    rw [hs]
    exact (or_iff_left fun hnone => nomatch hnone.1).symm

/-! ## Runs -/

/-- Settling a module by force does not end the phase in which modules are held back. -/
theorem Orderly.documentWrite_of_forced (h : env.Orderly) {action : Action} {id : String}
    (hforced : action.forced? = some id) :
    (env.perform action).2.documentWrite = env.documentWrite := by
  cases action with
  | setLoaded other => rfl
  | evalLoad path hasSourceMap code =>
    exact documentWrite_evalLoad h.upright.retrieving.acceptsCode path hasSourceMap code
  | load | loadWith | documentReady | settle | turn | rouse | supply => cases hforced

/-- Actions never begin the phase in which modules are held back. -/
theorem Orderly.released_perform (h : env.Orderly) (action : Action)
    (hd : (env.perform action).2.documentWrite = true) : env.documentWrite = true := by
  have hloading : action.isLoading = true → env.documentWrite = true := fun hl =>
    (h.upright.retrieving.kept_perform hl).documentWrite hd
  cases action with
  | load | loadWith | documentReady | settle | turn | rouse => exact hloading rfl
  | setLoaded id => exact hd
  | evalLoad path hasSourceMap code =>
    rw [← documentWrite_evalLoad h.upright.retrieving.acceptsCode path hasSourceMap code]
    exact hd
  | supply content =>
    obtain ⟨transport, hs, -⟩ := env.supply_frame content
    change (env.supply content).documentWrite = true at hd
    rw [hs] at hd
    exact hd

/-- A document that is not ready after some actions was not ready before. -/
theorem Orderly.released_run (h : env.Orderly) (actions : List Action)
    (hd : (env.run actions).2.documentWrite = true) : env.documentWrite = true := by
  induction actions generalizing env with
  | nil => exact hd
  | cons action actions ih => exact h.released_perform action (ih (h.perform action) hd)

/-- One of some actions settles the module by force while it is held back. -/
def ForcedWhileHeld (env : Environment) (actions : List Action) (id : String) : Prop :=
  ∃ earlier action later, actions = earlier ++ action :: later ∧ action.forced? = some id ∧
    id ∈ (env.run earlier).2.pendingWrites.map (·.id)

/-- One of some actions settles a module by force while it is held back if the first does or one of
the others. -/
theorem forcedWhileHeld_cons (env : Environment) (action : Action) (actions : List Action)
    (id : String) : env.ForcedWhileHeld (action :: actions) id ↔
      (action.forced? = some id ∧ id ∈ env.pendingWrites.map (·.id)) ∨
        (env.perform action).2.ForcedWhileHeld actions id := by
  constructor
  · rintro ⟨earlier, forcing, later, heq, hforced, hheld⟩
    cases earlier with
    | nil =>
      cases heq
      exact .inl ⟨hforced, hheld⟩
    | cons first earlier =>
      cases heq
      exact .inr ⟨earlier, forcing, later, rfl, hforced, hheld⟩
  · rintro (⟨hforced, hheld⟩ | ⟨earlier, forcing, later, heq, hforced, hheld⟩)
    · exact ⟨[], action, actions, rfl, hforced, hheld⟩
    · exact ⟨action :: earlier, forcing, later, by rw [heq]; rfl, hforced, hheld⟩

/-- A module is started late just when the phase in which it was held back has ended, and it was
settled by then. -/
theorem Orderly.started (h : env.Orderly) (actions : List Action) (id : String) :
    StartsLate (env.started actions) id ↔ (env.run actions).2.documentWrite = false ∧
      (env.HeldSettled id ∨ env.ForcedWhileHeld actions id) := by
  induction actions generalizing env with
  | nil =>
    refine iff_of_false ?_ ?_
    · rintro ⟨start, hs, -⟩
      cases hs
    · rintro ⟨hd, hheld | ⟨earlier, action, later, heq, -⟩⟩
      · change env.documentWrite = false at hd
        rw [hheld.documentWrite h.upright.flight] at hd
        cases hd
      · simp at heq
  | cons action actions ih =>
    have hnext := h.perform action
    rw [started_cons, startsLate_append, h.startsLate, ih hnext, h.heldSettled, run_cons,
      forcedWhileHeld_cons]
    simp only
    cases hd : (env.perform action).2.documentWrite with
    | false =>
      have hend : ((env.perform action).2.run actions).2.documentWrite = false := by
        rw [← Bool.not_eq_true]
        intro hw
        rw [hnext.released_run actions hw] at hd
        cases hd
      have hnot : ¬ (action.forced? = some id ∧ id ∈ env.pendingWrites.map (·.id)) := by
        rintro ⟨hforced, hmem⟩
        rw [h.documentWrite_of_forced hforced] at hd
        rw [h.upright.flight.held hd] at hmem
        cases hmem
      rw [iff_false_intro hnot, false_or]
      simp [hend]
    | true => simp [or_assoc]

/-- The retrievals that a run starts are those of requested modules, or come too late. -/
theorem Orderly.started_requested (h : env.Orderly) (actions : List Action) :
    ∀ start ∈ env.started actions, start.state = some .requested ∨ start.isLate = true := by
  induction actions generalizing env with
  | nil => nofun
  | cons action actions ih =>
    intro start hstart
    rw [started_cons] at hstart
    rcases List.mem_append.1 hstart with hs | hs
    · cases action with
      | load caller paths =>
        exact h.loadWith_requested caller paths env.config.forceAsync start hs
      | loadWith caller paths atOnce => exact h.loadWith_requested caller paths atOnce start hs
      | documentReady caller => exact h.documentReady_requested caller start hs
      | evalLoad path hasSourceMap code =>
        rw [record_evalLoad_starts] at hs
        cases hs
      | settle =>
        rw [record_settle_starts] at hs
        cases hs
      | setLoaded | turn | rouse | supply => cases hs
    · exact ih (h.perform action) start hs

/-- An environment on a host that retrieves modules may be given any actions, and each may fail.  A
retrieval is started only for a module that is requested, or too late for one that is settled
already; and the latter just when the module was counted as loaded, or given as code, while it was
held back, and the phase in which modules are held back has ended since.  The retrievals started are
what a bundle that serves them one at a time has been asked for; where they run beside the caller,
they are those that were spawned, in order. -/
theorem run_starts_settled_iff (config : Configuration)
    (hhost : config.host.profile.behavior = .retrieve) (transport : Transport)
    {engine : Script.Engine} (made : Environment)
    (hmake : make config transport engine = .ok made) (specs : List ModuleSpec)
    (actions : List Action) :
    let env := made.withSpecs specs
    (∀ start ∈ env.started actions, start.state = some .requested ∨ start.isLate = true) ∧
    (∀ id, (∃ start ∈ env.started actions, start.spec.id = id ∧ start.isLate = true) ↔
      (env.run actions).2.documentWrite = false ∧
        ∃ earlier action later, actions = earlier ++ action :: later ∧
          action.forced? = some id ∧ id ∈ (env.run earlier).2.pendingWrites.map (·.id)) ∧
    (∀ bundle, env.transport = .serial (.bundle bundle) →
      (∀ action ∈ actions, ∀ content, action ≠ .supply content) →
      (env.run actions).2.transport = .serial (.bundle { bundle with
        requests := bundle.requests ++ (env.started actions).map (·.spec.location) })) ∧
    ∀ medium, env.transport = .concurrent medium →
      ∃ events, Passage env events (env.run actions).2 ∧
        events.flatMap Occurrence.spawns = (env.started actions).map Start.retrieval := by
  intro env
  obtain ⟨hmade, hconfig, -⟩ := fresh_of_make hmake
  have hfresh : env.Fresh := hmade.withSpecs specs
  have hbehavior : env.profile.behavior = .retrieve := by
    rw [← hhost, ← hconfig]
    rfl
  have hnone : ∀ id, ¬ env.HeldSettled id := by
    rintro id ⟨hmem, -⟩
    rw [hfresh.pendingWrites] at hmem
    cases hmem
  have horderly : env.Orderly := by
    refine ⟨hfresh.upright hbehavior, fun id hid => ?_⟩
    simp [Moment.transit, hfresh.pendingWrites, hfresh.schedule, Schedule.idle,
      Schedule.outstanding] at hid
  refine ⟨horderly.started_requested actions, fun id => ?_,
    fun bundle ht hall => horderly.upright.run_asks hall ht, fun medium ht => ?_⟩
  · have hstarted := horderly.started actions id
    rw [iff_false_intro (hnone id), false_or] at hstarted
    exact hstarted
  · obtain ⟨events, hpassage, hspawns⟩ := horderly.upright.run_spawns actions
    exact ⟨events, hpassage, hspawns (by rw [ht]; rfl)⟩

/-- A browser's loader holds a module back, which is counted as loaded; when the document becomes
ready, its retrieval is started all the same. -/
theorem run_starts_settled_iff_countedLoaded :
    let config := { Configuration.default with host := .browser, aliases := [] }
    let bundle := Bundle.empty.add [("a.js", "log('a')")] [] []
    let actions := [Action.load .insideEventLoop ["a.js"], .setLoaded "a.js",
      .documentReady .insideEventLoop]
    config.host.profile.behavior = .retrieve ∧
      ∃ made, make config (.serial (.bundle bundle)) = .ok made ∧
        ∃ start ∈ (made.withSpecs []).started actions, start.spec.id = "a.js" ∧
          start.isLate = true := by
  intro config bundle actions
  obtain ⟨made, hmade, hready, hheld⟩ : ∃ made, make config (.serial (.bundle bundle)) = .ok made ∧
      ((made.withSpecs []).run actions).2.documentWrite = false ∧
      "a.js" ∈ ((made.withSpecs []).run [.load .insideEventLoop ["a.js"]]).2.pendingWrites.map
        (·.id) := ⟨_, rfl, by decide +kernel +revert⟩
  obtain ⟨-, hiff, -⟩ :=
    run_starts_settled_iff config rfl (.serial (.bundle bundle)) made hmade [] actions
  exact ⟨rfl, made, hmade, (hiff "a.js").2 ⟨hready, [.load .insideEventLoop ["a.js"]], _, _, rfl, rfl,
    hheld⟩⟩

end Environment

end ModuleLoader
