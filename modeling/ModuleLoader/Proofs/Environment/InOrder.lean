import ModuleLoader.Proofs.Environment.Boot
import ModuleLoader.Proofs.Environment.Refinement

/-!
# Loading and settling in order

Modules are evaluated in order up to the first that stops the load.  That is one that cannot be
retrieved or, where loading stops at failures, one whose evaluation fails.  A new environment that
loads some modules and settles ends in the namespace that this leads to, and its answer tells whether
all of them were evaluated.  Main statements: `Fresh.endsInOrder_browser` and
`Fresh.endsInOrder_serial`.
-/

set_option autoImplicit false

namespace ModuleLoader

open ModuleLoader.Namespace (Layer WrapOptions)

/-! ## Evaluation in order -/

/-- Evaluate modules one after the other, up to the first that stops the load; answers also whether
all of them were evaluated. -/
def evaluateInOrder (policy : FailurePolicy) (content : String → Except RetrievalFailure String)
    (options : WrapOptions) : List ModuleSpec → Layer → Bool × Layer
  | [], layer => (true, layer)
  | spec :: specs, layer =>
    match spec.attempt options (content spec.location) layer with
    | (.ok (), layer) => evaluateInOrder policy content options specs layer
    | (.error (.retrieval _), layer) => (false, layer)
    | (.error (.evaluation _), layer) =>
      match policy with
      | .failFast => (false, layer)
      | .failForward => (false, (evaluateInOrder policy content options specs layer).2)

variable {content : String → Except RetrievalFailure String} {options : WrapOptions}

/-- Modules that all can be retrieved and evaluated are evaluated before the others. -/
theorem Boots.evaluateInOrder_append {specs : List ModuleSpec} {layer mid : Layer}
    (h : Boots content options specs layer mid) (policy : FailurePolicy) (more : List ModuleSpec) :
    evaluateInOrder policy content options (specs ++ more) layer =
      evaluateInOrder policy content options more mid := by
  induction h with
  | nil layer => rfl
  | cons first _ ih => simp only [List.cons_append, evaluateInOrder, first, ih]

/-- Modules that can all be evaluated lead to where evaluating them in order does. -/
theorem Boots.evaluateInOrder_eq {specs : List ModuleSpec} {layer final : Layer}
    (h : Boots content options specs layer final) (policy : FailurePolicy) :
    evaluateInOrder policy content options specs layer = (true, final) := by
  have happend := h.evaluateInOrder_append policy []
  rw [List.append_nil] at happend
  exact happend

/-- Where all modules were evaluated, all can be retrieved and evaluated. -/
theorem boots_of_evaluateInOrder {policy : FailurePolicy} {specs : List ModuleSpec} {layer : Layer}
    (h : (evaluateInOrder policy content options specs layer).1 = true) :
    Boots content options specs layer (evaluateInOrder policy content options specs layer).2 := by
  induction specs generalizing layer with
  | nil => exact .nil layer
  | cons spec specs ih =>
    rcases he : spec.attempt options (content spec.location) layer with ⟨(_ | _) | _, mid⟩
    · simp [evaluateInOrder, he] at h
    · cases policy <;> simp [evaluateInOrder, he] at h
    · simp only [evaluateInOrder, he] at h ⊢
      exact .cons he (ih h)

/-- Where loading stops at failures, the first module that fails is the last one looked at. -/
theorem Boots.evaluateInOrder_stop {before : List ModuleSpec} {spec : ModuleSpec}
    {layer mid final : Layer} {cause : FailureCause} (h : Boots content options before layer mid)
    (hfails : spec.attempt options (content spec.location) mid = (.error cause, final))
    (later : List ModuleSpec) :
    evaluateInOrder .failFast content options (before ++ spec :: later) layer = (false, final) := by
  rw [h.evaluateInOrder_append, evaluateInOrder, hfails]
  cases cause <;> rfl

/-! ## Plain loading -/

namespace Plain

variable (content options) in
/-- The plain loader evaluates in order, and passes over failed evaluations. -/
theorem evaluateInOrder_eq (specs : List ModuleSpec) (layer : Layer) :
    evaluateInOrder .failForward content options specs layer =
      ((load content options specs layer).failed.isEmpty,
        (load content options specs layer).layer) := by
  induction specs generalizing layer with
  | nil => rfl
  | cons spec specs ih =>
    cases hc : content spec.location with
    | error failure => simp [evaluateInOrder, ModuleSpec.attempt, load, unretrieved, hc]
    | ok code =>
      rcases hl : layer.loadModule options ⟨spec.id, spec.location, spec.hasSourceMap⟩ code with
        ⟨_ | _, mid⟩ <;> simp [evaluateInOrder, ModuleSpec.attempt, load, hc, hl, ih]

variable (content options) in
/-- A load has a record for each module, in order. -/
theorem map_id_records (specs : List ModuleSpec) (layer : Layer) :
    (load content options specs layer).records.map (·.id) = specs.map (·.id) := by
  fun_induction load content options specs layer with
  | case1 => rfl
  | case2 => simp [retrieved, ModuleSpec.record]
  | case3 spec rest layer code hc mid hl r ih => exact congrArg (spec.id :: ·) ih
  | case4 spec rest layer code hc failure mid hl r ih => exact congrArg (spec.id :: ·) ih

/-- No module has failed just when the records say of each that it was evaluated. -/
theorem failed_eq_nil_iff (specs : List ModuleSpec) (layer : Layer) :
    (load content options specs layer).failed = [] ↔
      ∀ record ∈ (load content options specs layer).records, record.isLoaded = true := by
  fun_induction load content options specs layer with
  | case1 => simp
  | case2 spec rest layer failure hc =>
    simp [unretrieved, retrieved, ModuleSpec.record, ModuleRecord.isLoaded, ModuleState.ofRetrieval,
      hc]
  | case3 spec rest layer code hc mid hl r ih =>
    have hfirst : (spec.record .evaluated).isLoaded = true := rfl
    simpa [hfirst] using ih
  | case4 spec rest layer code hc failure mid hl r ih =>
    simp [ModuleSpec.record, ModuleRecord.isLoaded]

/-- Only modules that could not be retrieved are left. -/
theorem left_eq_nil {specs : List ModuleSpec} {layer : Layer}
    (h : (load content options specs layer).failed = []) :
    (load content options specs layer).left = [] := by
  fun_induction load content options specs layer with
  | case1 => rfl
  | case2 spec rest layer failure hc => simp [unretrieved, hc] at h
  | case3 spec rest layer code hc mid hl r ih => exact ih h
  | case4 spec rest layer code hc failure mid hl r ih => cases h

/-- The report of the plain loader is complete just when every module is found to be evaluated. -/
theorem failed_eq_nil_iff_isLoaded {specs : List ModuleSpec} {layer : Layer} {store : ModuleStore}
    (hnodup : (specs.map (·.id)).Nodup)
    (hstore : ∀ id, store.get? id =
      (load content options specs layer).records.find? (·.id == id)) :
    (load content options specs layer).failed = [] ↔
      ∀ spec ∈ specs, store.isLoaded spec.id = true := by
  have hids := map_id_records content options specs layer
  rw [failed_eq_nil_iff]
  generalize (load content options specs layer).records = records at hids hstore ⊢
  rw [← hids] at hnodup
  constructor
  · intro hall spec hs
    obtain ⟨record, hr, hid⟩ := List.mem_map.1 (hids ▸ List.mem_map_of_mem (f := ModuleSpec.id) hs)
    cases hfind : records.find? (·.id == spec.id) with
    | none =>
      have hne := List.find?_eq_none.1 hfind record hr
      simp [hid] at hne
    | some found =>
      simp [ModuleStore.isLoaded, hstore, hfind, hall found (List.mem_of_find?_eq_some hfind)]
  · intro hall record hr
    obtain ⟨spec, hs, hid⟩ := List.mem_map.1 (hids ▸ List.mem_map_of_mem (f := ModuleRecord.id) hr)
    have hloaded := hall spec hs
    rw [ModuleStore.isLoaded, hstore, Option.any_eq_true] at hloaded
    obtain ⟨found, hfind, hloaded⟩ := hloaded
    have hsame : found = record := by
      refine List.inj_on_of_nodup_map hnodup (List.mem_of_find?_eq_some hfind) hr ?_
      rw [← hid]
      simpa using List.find?_some hfind
    exact hsame ▸ hloaded

end Plain

/-- A list without repetitions stays as it is when they are erased. -/
theorem eraseDups_of_nodup {ids : List String} (h : ids.Nodup) : ids.eraseDups = ids := by
  induction ids with
  | nil => rfl
  | cons id ids ih =>
    rw [List.nodup_cons] at h
    have hothers : ids.filter (fun other => !other == id) = ids := by
      refine List.filter_eq_self.2 fun other hother => ?_
      have hne : other ≠ id := fun he => h.1 (he ▸ hother)
      simpa using hne
    rw [List.eraseDups_cons, hothers, ih h.2]

namespace Environment

/-! ## Loading with an environment -/

variable {env : Environment} {medium : Medium}

/-- Settle after an operation that did not fail. -/
def thenSettle (outcome : Except LoaderError Unit × Environment) :
    Except LoaderError LoadReport × Environment :=
  match outcome with
  | (.error e, env) => (.error e, env)
  | (.ok (), env) => env.settle

/-- After an operation that did not fail, settle. -/
theorem thenSettle_of_ok {outcome : Except LoaderError Unit × Environment} (h : outcome.1 = .ok ()) :
    thenSettle outcome = outcome.2.settle := by
  obtain ⟨answer, env⟩ := outcome
  cases h
  rfl

/-- After an operation that failed, settle nothing. -/
theorem thenSettle_of_error {outcome : Except LoaderError Unit × Environment} {e : LoaderError}
    (h : outcome.1 = .error e) : thenSettle outcome = (.error e, outcome.2) := by
  obtain ⟨answer, env⟩ := outcome
  cases h
  rfl

/-- An environment was given some modules, and it ended where evaluating them in order does. -/
structure EndsInOrder (env : Environment) (content : String → Except RetrievalFailure String)
    (specs : List ModuleSpec) (outcome : Except LoaderError LoadReport × Environment) : Prop where
  config : outcome.2.config = env.config
  layer : outcome.2.layer =
    (evaluateInOrder env.profile.policy content env.config.wrapOptions specs env.layer).2
  /-- The answer is a complete report just when every module was evaluated. -/
  complete : (∃ report, outcome.1 = .ok report ∧ report.isComplete = true) ↔
    (evaluateInOrder env.profile.policy content env.config.wrapOptions specs env.layer).1 = true
  loaded : (∀ spec ∈ specs, outcome.2.store.isLoaded spec.id = true) ↔
    (evaluateInOrder env.profile.policy content env.config.wrapOptions specs env.layer).1 = true

/-- An environment ends in order that ends where evaluating the modules does. -/
theorem EndsInOrder.of_eq {specs : List ModuleSpec}
    {outcome : Except LoaderError LoadReport × Environment} {all : Bool} {final : Layer}
    (h : evaluateInOrder env.profile.policy content env.config.wrapOptions specs env.layer =
      (all, final))
    (hconfig : outcome.2.config = env.config) (hlayer : outcome.2.layer = final)
    (hcomplete : (∃ report, outcome.1 = .ok report ∧ report.isComplete = true) ↔ all = true)
    (hloaded : (∀ spec ∈ specs, outcome.2.store.isLoaded spec.id = true) ↔ all = true) :
    env.EndsInOrder content specs outcome := by
  refine ⟨hconfig, ?_, ?_, ?_⟩ <;> rw [h]
  · exact hlayer
  · exact hcomplete
  · exact hloaded

/-- Different ids are those of different modules. -/
theorem Fresh.nodup_ids (h : env.Fresh) {ids : List String} (hids : ids.Nodup) :
    ((ids.map env.specFor).map (·.id)).Nodup := by
  rw [map_id_specFor (id_specFor h.named)]
  exact hids

/-- Loading does not change the configuration. -/
theorem Fresh.config_load (h : env.Fresh) (caller : Caller) (ids : List String) :
    (env.load caller ids).2.config = env.config := by
  obtain ⟨incidents, hi⟩ := env.exists_suffers (.load caller ids)
  exact (Incurs.records hi h.recorded).notes.config

/-- A report is complete just when nothing failed and nothing is pending. -/
theorem isComplete_iff (report : LoadReport) :
    report.isComplete = true ↔ report.failed = [] ∧ report.pending = 0 := by
  simp [LoadReport.isComplete]

/-! ### Turns in between -/

/-- Turns of retrievals leave the host alone. -/
theorem host_turnAll (env : Environment) (turns : List Nat) : (env.turnAll turns).host = env.host := by
  induction turns generalizing env with
  | nil => rfl
  | cons n turns ih =>
    refine (ih (env.turn n)).trans ?_
    rw [turn_eq_stir]
    exact congrArg (·.host) (kept_stir env _).config

/-- Let retrievals have some turns. -/
def turning (turns : List Nat) (env : Environment) : Except LoaderError Unit × Environment :=
  (.ok (), env.turnAll turns)

/-- Retrievals that do not run beside the caller have no turns. -/
theorem turnAll_of_not_concurrent (h : env.transport.isConcurrent = false) (turns : List Nat) :
    env.turnAll turns = env := by
  have hturn : ∀ n, env.turn n = env := by
    intro n
    unfold turn
    cases ht : env.transport with
    | concurrent medium =>
      rw [ht] at h
      cases h
    | serial medium => rfl
    | none => rfl
  induction turns with
  | nil => rfl
  | cons n turns ih =>
    show (env.turn n).turnAll turns = env
    rw [hturn]
    exact ih

/-- Where retrievals do not run beside the caller, an operation comes to the same with turns after
it. -/
theorem andThen_turning {outcome : Except LoaderError Unit × Environment}
    (h : outcome.2.transport.isConcurrent = false) (turns : List Nat) :
    andThen outcome (turning turns) = outcome := by
  obtain ⟨e | u, after⟩ := outcome
  · rfl
  · rw [andThen_of_ok rfl, turning, turnAll_of_not_concurrent h]

/-- Turns that follow each other are turns. -/
theorem andThen_turning_turning (outcome : Except LoaderError Unit × Environment)
    (turns more : List Nat) :
    andThen (andThen outcome (turning turns)) (turning more) =
      andThen outcome (turning (turns ++ more)) := by
  obtain ⟨e | u, after⟩ := outcome
  · rfl
  · simp only [andThen, turning, turnAll, List.foldl_append]

/-- Load some modules, end the phase in which they are held back, and let retrievals have turns after
each. -/
def loadReady (env : Environment) (caller : Caller) (ids : List String) (loaded ready : List Nat) :
    Except LoaderError Unit × Environment :=
  andThen (andThen (andThen (env.load caller ids) (turning loaded)) (·.documentReady caller))
    (turning ready)

/-- The same as the actions of a run. -/
def loadReadyActions (caller : Caller) (ids : List String) (loaded ready : List Nat) : List Action :=
  [.load caller ids] ++ loaded.map .turn ++ [.documentReady caller] ++ ready.map .turn

/-- Turns are always answered, and hand out no report. -/
theorem run_turns (env : Environment) (turns : List Nat) :
    env.run (turns.map .turn) = (turns.map fun _ => .ok none, env.turnAll turns) := by
  induction turns generalizing env with
  | nil => rfl
  | cons n turns ih =>
    rw [List.map_cons, run_cons]
    simp only [perform, ih]
    rfl

/-- The answers to a load and to the end of the phase in which modules are held back hand out no
report, and settling after them is the last action of a run. -/
theorem thenSettle_of_run {caller : Caller} {ids : List String} {loaded ready : List Nat}
    {report : LoadReport} {final : Environment}
    (hanswers : ∀ answer ∈ (env.run (loadReadyActions caller ids loaded ready)).1,
      ∃ r, answer = .ok r)
    (hrun : env.run (loadReadyActions caller ids loaded ready ++ [.settle]) =
      ((env.run (loadReadyActions caller ids loaded ready)).1 ++ [.ok (some report)], final)) :
    reportsOf (env.run (loadReadyActions caller ids loaded ready)).1 = [] ∧
      thenSettle (env.loadReady caller ids loaded ready) = (.ok report, final) := by
  have hok : ∀ {answer : Except LoaderError Unit},
      (∃ r, answer.map (fun _ => (none : Option LoadReport)) = .ok r) → answer = .ok () := by
    rintro (e | u) ⟨r, hr⟩
    · cases hr
    · rfl
  have hcalls : env.run (loadReadyActions caller ids loaded ready) =
      ([(env.load caller ids).1.map fun _ => none] ++ loaded.map (fun _ => .ok none) ++
          [(((env.load caller ids).2.turnAll loaded).documentReady caller).1.map fun _ => none] ++
          ready.map (fun _ => .ok none),
        (((env.load caller ids).2.turnAll loaded).documentReady caller).2.turnAll ready) := by
    simp only [loadReadyActions, run_append, run_turns]
    rfl
  rw [run_append, Prod.mk.injEq, List.append_cancel_left_eq] at hrun
  rw [hcalls] at hanswers hrun ⊢
  have hload : (env.load caller ids).1 = .ok () := hok (hanswers _ (by simp))
  have hready : (((env.load caller ids).2.turnAll loaded).documentReady caller).1 = .ok () :=
    hok (hanswers _ (by simp))
  refine ⟨?_, ?_⟩
  · rw [hload, hready]
    simp [reportsOf, Except.map]
  · have hloaded : andThen (env.load caller ids) (turning loaded) =
        (.ok (), (env.load caller ids).2.turnAll loaded) := andThen_of_ok hload _
    have hreleased : env.loadReady caller ids loaded ready = (.ok (),
        (((env.load caller ids).2.turnAll loaded).documentReady caller).2.turnAll ready) := by
      rw [loadReady, hloaded]
      exact andThen_of_ok hready _
    rw [hreleased, thenSettle_of_ok rfl]
    simp only at hrun ⊢
    generalize (((env.load caller ids).2.turnAll loaded).documentReady caller).2.turnAll ready = last
      at hrun ⊢
    obtain ⟨hanswer, hfinal⟩ := hrun
    have hone : last.settle.1.map some = .ok (some report) := List.head_eq_of_cons_eq hanswer
    refine Prod.ext ?_ hfinal
    cases hs : last.settle.1 with
    | error e => simp [hs, Except.map] at hone
    | ok r => simpa [hs, Except.map] using hone

/-- A browser's new environment loads some modules, lets go what it held back, and settles, whatever
turns retrievals have in between. -/
theorem Fresh.endsInOrder_browser (h : env.Fresh) (hhost : env.host = .browser)
    (hserves : env.transport.Serves content) {ids : List String} (hids : ids.Nodup)
    (loaded ready : List Nat) :
    env.EndsInOrder content (ids.map env.specFor)
      (thenSettle (env.loadReady .insideEventLoop ids loaded ready)) := by
  obtain ⟨hr, hf⟩ := h.browser hhost
  have hbefore : ∀ a ∈ [Action.load .insideEventLoop ids] ++ loaded.map .turn ++ ready.map .turn,
      a.isLoading = true ∧ a.caller = .insideEventLoop := by
    intro a ha
    simp only [List.mem_append, List.mem_singleton, List.mem_map] at ha
    rcases ha with (rfl | ⟨n, -, rfl⟩) | ⟨n, -, rfl⟩ <;> exact ⟨rfl, rfl⟩
  have hall : ∀ a ∈ loadReadyActions .insideEventLoop ids loaded ready,
      a.isLoading = true ∧ a.caller = .insideEventLoop := by
    intro a ha
    simp only [loadReadyActions, List.mem_append, List.mem_singleton, List.mem_map] at ha
    rcases ha with ((rfl | ⟨n, -, rfl⟩) | rfl) | ⟨n, -, rfl⟩ <;> exact ⟨rfl, rfl⟩
  have hasked : (loadReadyActions .insideEventLoop ids loaded ready).flatMap Action.paths = ids := by
    simp [loadReadyActions, List.flatMap_map, Action.paths]
  have hready := documentWrite_run hr hf hbefore
  obtain ⟨env', journal, hresult, hanswers, hsteps, hnone, hmirrored⟩ :=
    h.run_settled hr hf hserves hall hready
  obtain ⟨hreports, houtcome⟩ := thenSettle_of_run hanswers hresult
  have hplain := hmirrored.plain hnone
  have hk : env.Kept env' := hsteps.kept
  simp only [hk.config, funext hk.specFor, hreports, hasked, Log.reporting_nil, Log.asking, Log.empty,
    List.nil_append, List.flatMap_nil, eraseDups_of_nodup hids, Moment.failed] at hplain
  obtain ⟨-, hfailed, hlayer, hstore, hpending⟩ := hplain
  have hinorder :=
    Plain.evaluateInOrder_eq content env.config.wrapOptions (ids.map env.specFor) env.layer
  rw [← hf] at hinorder
  rw [houtcome]
  refine .of_eq hinorder hk.config hlayer ?_ ?_
  · rw [List.isEmpty_iff]
    constructor
    · rintro ⟨report, hreport, hcomplete⟩
      cases hreport
      have hnil : env'.progress.failed = [] := ((isComplete_iff _).1 hcomplete).1
      rw [hnil] at hfailed
      exact hfailed.nil_eq.symm
    · intro hnil
      rw [hnil] at hfailed
      have hleft := hpending.trans (Plain.left_eq_nil hnil)
      exact ⟨_, rfl, (isComplete_iff _).2 ⟨hfailed.eq_nil, congrArg List.length hleft⟩⟩
  · rw [List.isEmpty_iff]
    exact (Plain.failed_eq_nil_iff_isLoaded (h.nodup_ids hids) hstore).symm

/-- A module that has been loaded is evaluated. -/
theorem Booted.isLoaded {fresh : Environment} {done : List ModuleSpec}
    (h : Booted fresh medium done env) {spec : ModuleSpec} (hs : spec ∈ done) :
    env.store.isLoaded spec.id = true := by
  rw [ModuleStore.isLoaded, h.store]
  cases hfind : (done.map (·.record .evaluated)).find? (·.id == spec.id) with
  | none =>
    have hne := List.find?_eq_none.1 hfind _ (List.mem_map_of_mem hs)
    simp [ModuleSpec.record] at hne
  | some record =>
    obtain ⟨other, -, rfl⟩ := List.mem_map.1 (List.mem_of_find?_eq_some hfind)
    rfl

/-- The module that failed is not evaluated. -/
theorem Broken.not_isLoaded {fresh : Environment} {done : List ModuleSpec} {spec : ModuleSpec}
    {cause : FailureCause} (h : Broken fresh medium done spec cause env)
    (hnew : spec.id ∉ done.map (·.id)) : env.store.isLoaded spec.id = false := by
  have hunknown : (done.map (·.record .evaluated)).find? (·.id == spec.id) = none := by
    refine List.find?_eq_none.2 fun record hr he => hnew ?_
    obtain ⟨other, hother, rfl⟩ := List.mem_map.1 hr
    exact List.mem_map.2 ⟨other, hother, beq_iff_eq.1 he⟩
  rw [ModuleStore.isLoaded, h.store, find?_concat_record done spec _ hunknown, if_pos rfl]
  rfl

/-- Where loading stops at failures, a load that is answered well has met none. -/
theorem Fresh.failed_of_load (h : env.Fresh) (hp : env.profile.policy = .failFast) {caller : Caller}
    {ids : List String} (hok : (env.load caller ids).1 = .ok ()) :
    (env.load caller ids).2.progress.failed = [] := by
  obtain ⟨incidents, hi⟩ := env.exists_suffers (.load caller ids)
  have hrecords := Incurs.records hi h.recorded
  have hnone : incidents = [] := by
    refine (hrecords.answer hp).resolve_right ?_
    rintro ⟨i, -, hi⟩
    cases hok.symm.trans hi
  have hnoted := hrecords.notes.failed
  rw [h.progress, hnone] at hnoted
  exact hnoted

/-- With a transport that waits for each retrieval, nothing is in flight after loading. -/
theorem Fresh.inFlight_load (h : env.Fresh) (hb : env.profile.behavior = .retrieve) (caller : Caller)
    (ids : List String) (ht : (env.load caller ids).2.transport = .serial medium) :
    (env.load caller ids).2.inFlight = 0 := by
  obtain ⟨asked, -, hsteps⟩ :=
    (loadWith_leads caller (h.retrieving hb) ids env.config.forceAsync).steps
  refine ((hsteps .empty).flight h.flight).alone fun medium ht' => ?_
  cases ht.symm.trans ht'

/-- Where retrievals are waited for and loading stops at failures, a new environment loads some
modules and settles. -/
theorem Fresh.endsInOrder_serial (h : env.Fresh) (hb : env.profile.behavior = .retrieve)
    (hp : env.profile.policy = .failFast) (hd : env.documentWrite = false)
    (ht : env.transport = .serial medium) (caller : Caller) {ids : List String} (hids : ids.Nodup) :
    env.EndsInOrder medium.content (ids.map env.specFor) (thenSettle (env.load caller ids)) := by
  have hcases := h.load_cases hb hp hd ht caller ids
  rw [eraseDups_of_nodup hids] at hcases
  rcases hcases with ⟨hok, hbooted⟩ | ⟨before, spec, later, cause, hmodules, -, herror, hbroken⟩
  · have hidle := h.inFlight_load hb caller ids hbooted.transport
    have hpending : (env.load caller ids).2.order.pending = [] := by
      rw [hbooted.order, LoadOrder.pending]
      simp
    obtain ⟨journal, hreport⟩ := (env.load caller ids).2.report_frame
    rw [thenSettle_of_ok hok, settle_of_idle hidle hbooted.arrived, hreport]
    refine .of_eq (hbooted.boots.evaluateInOrder_eq _) hbooted.config rfl ?_ ?_
    · refine iff_of_true ⟨_, rfl, (isComplete_iff _).2 ⟨h.failed_of_load hp hok, ?_⟩⟩ rfl
      exact congrArg List.length hpending
    · exact iff_of_true (fun spec hs => hbooted.isLoaded hs) rfl
  · obtain ⟨mid, hboots, hfails⟩ := hbroken.breaks
    have hnew : spec.id ∉ before.map (·.id) := by
      have hnodup := h.nodup_ids hids
      rw [hmodules, List.map_append, List.map_cons, List.nodup_middle, List.nodup_cons] at hnodup
      exact fun hmem => hnodup.1 (List.mem_append_left _ hmem)
    have hstop := hboots.evaluateInOrder_stop hfails later
    rw [← hmodules, ← hp] at hstop
    rw [thenSettle_of_error herror]
    refine .of_eq hstop (h.config_load caller ids) rfl ?_ ?_
    · exact iff_of_false (by rintro ⟨report, hreport, -⟩; cases hreport) (by simp)
    · refine iff_of_false (fun hall => ?_) (by simp)
      have hloaded := hall spec (by simp [hmodules])
      rw [hbroken.not_isLoaded hnew] at hloaded
      cases hloaded

/-! ## Counting as loaded -/

/-- Taking modules as evaluated changes the store alone. -/
theorem foldl_setLoaded_frame (env : Environment) (ids : List String) :
    ids.foldl setLoaded env = { env with store := ids.foldl ModuleStore.markLoaded env.store } := by
  induction ids generalizing env with
  | nil => rfl
  | cons id ids ih => exact ih (env.setLoaded id)

/-- A module is evaluated that was taken as such, or was before. -/
theorem isLoaded_foldl_markLoaded (store : ModuleStore) (ids : List String) (id : String)
    (h : id ∈ ids ∨ store.isLoaded id = true) :
    ModuleStore.isLoaded (ids.foldl ModuleStore.markLoaded store) id = true := by
  induction ids generalizing store with
  | nil => exact h.resolve_left (List.not_mem_nil)
  | cons first ids ih =>
    refine ih (store.markLoaded first) ?_
    by_cases he : id = first
    · right
      rw [he, ModuleStore.isLoaded, ModuleStore.markLoaded, ModuleStore.get?_force_self]
      rfl
    · rw [ModuleStore.isLoaded, ModuleStore.markLoaded, ModuleStore.get?_force_of_ne _ _ he]
      exact h.imp_left fun hmem => (List.mem_cons.1 hmem).resolve_left he

/-- Where modules are counted as loaded, a new environment answers for some modules with a complete
report. -/
theorem Fresh.thenSettle_counting (h : env.Fresh)
    (hb : env.profile.behavior = .markOnly ∨ env.profile.behavior = .alwaysLoaded) (caller : Caller)
    (ids : List String) :
    (∃ report, (thenSettle (env.load caller ids)).1 = .ok report ∧ report.isComplete = true) ∧
      ∀ id ∈ ids, (thenSettle (env.load caller ids)).2.store.isLoaded id = true := by
  have hload : env.load caller ids =
      (.ok (), { env with store := ids.foldl ModuleStore.markLoaded env.store }) := by
    rw [← foldl_setLoaded_frame, load, loadWith]
    rcases hb with hb | hb <;> rw [hb]
  have harrived : env.schedule.arrived = [] := by
    rw [h.schedule]
    rfl
  have hsettle := @settle_of_idle { env with store := ids.foldl ModuleStore.markLoaded env.store }
    h.inFlight harrived
  obtain ⟨journal, hreport⟩ := { env with
    store := ids.foldl ModuleStore.markLoaded env.store }.report_frame
  rw [hload, thenSettle_of_ok rfl, hsettle, hreport]
  refine ⟨⟨_, rfl, (isComplete_iff _).2 ⟨?_, ?_⟩⟩, fun id hid => ?_⟩
  · show env.progress.failed = []
    rw [h.progress]
  · show env.order.pending.length = 0
    rw [h.order]
    rfl
  · exact isLoaded_foldl_markLoaded env.store ids id (.inl hid)

end Environment

end ModuleLoader
