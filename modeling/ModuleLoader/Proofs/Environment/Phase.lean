import ModuleLoader.Proofs.Environment.LateStarts
import ModuleLoader.Proofs.Environment.Refusal
import ModuleLoader.Proofs.Environment.Requests

/-!
# The phase in which modules are held back

A browser's loader holds modules back until the document is ready, or until some are loaded at once.
This puts off their retrievals and changes nothing else.  Calls that are refused on the way count for
nothing (`accepted`), and nothing at all is retrieved as long as the phase lasts (`Untouched`).  Main
statement: `run_phase`, a loader that begins with the phase and one that begins without it come to
the same end.
-/

set_option autoImplicit false

namespace ModuleLoader

/-- Whether an action is a call of an operation. -/
def Action.isCall : Action → Bool
  | .turn _ | .rouse _ | .supply _ => false
  | _ => true

/-- Only calls ask for paths. -/
theorem flatMap_paths_filter_isCall (actions : List Action) :
    (actions.filter Action.isCall).flatMap Action.paths = actions.flatMap Action.paths := by
  induction actions with
  | nil => rfl
  | cons action actions ih =>
    cases action <;> simp [List.filter_cons, Action.isCall, Action.paths, ih]

namespace Environment

variable {env env' fresh : Environment}

/-! ## Calls that are carried out -/

/-- The document may as well be told ready inside an event loop, where it is not refused. -/
theorem documentReady_inside {caller : Caller}
    (h : env.documentWrite = true → env.canStart caller = true) :
    env.documentReady .insideEventLoop = env.documentReady caller := by
  unfold documentReady
  cases hd : env.documentWrite with
  | false => rfl
  | true => rw [h hd, canStart_insideEventLoop]

/-- Modules may as well be loaded inside an event loop, where it is not refused. -/
theorem retrieveAll_inside {caller : Caller}
    (h : env.documentWrite = false → env.canStart caller = true) (paths : List String) :
    env.retrieveAll .insideEventLoop paths = env.retrieveAll caller paths := by
  unfold retrieveAll
  cases hd : env.documentWrite with
  | false => rw [h hd, canStart_insideEventLoop]
  | true => rfl

/-- So may they on any host. -/
theorem Equipped.loadWith_inside (h : env.Equipped) {caller : Caller} {atOnce : Bool}
    (hn : env.loadRefusal? caller atOnce = none) (paths : List String) :
    env.loadWith .insideEventLoop paths atOnce = env.loadWith caller paths atOnce := by
  unfold loadRefusal? at hn
  unfold loadWith
  cases hb : env.profile.behavior with
  | unsupported | markOnly | alwaysLoaded => rfl
  | retrieve =>
    simp only [hb, ite_eq_right_iff, reduceCtorEq, imp_false, Bool.and_eq_true, Bool.not_eq_true',
      Bool.or_eq_true, not_and, not_or] at hn
    simp only
    by_cases hc : env.canStart caller = true
    · have hready := @documentReady_inside env caller fun _ => hc
      have hkind :=
        (@CarriesOut.documentReady env (h.retrieving hb).transport caller fun _ => hc).concurrent
      rw [hready, retrieveAll_inside fun _ => hc]
      rcases hout : env.documentReady caller with ⟨e | u, env'⟩
      · rfl
      · rw [hout] at hkind
        have hc' : env'.canStart caller = true := by
          rw [← hc, canStart, canStart, hkind]
        simp only [retrieveAll_inside fun _ => hc']
    · rw [Bool.not_eq_true] at hc
      obtain ⟨hlater, hheld⟩ := hn hc
      rw [Bool.not_eq_true] at hlater
      rw [hlater, retrieveAll_inside fun hd => absurd hd hheld]
      rfl

/-- An action that is not refused does the same inside an event loop. -/
theorem Equipped.perform_inside (h : env.Equipped) {action : Action}
    (hn : env.refusal? action = none) : env.perform action.inside = env.perform action := by
  cases action with
  | load caller paths => exact congrArg unreported (h.loadWith_inside hn paths)
  | loadWith caller paths atOnce => exact congrArg unreported (h.loadWith_inside hn paths)
  | documentReady caller =>
    simp only [refusal?, ite_eq_right_iff, reduceCtorEq, imp_false, Bool.and_eq_true,
      Bool.not_eq_true', not_and, Bool.not_eq_false] at hn
    exact congrArg unreported (documentReady_inside hn)
  | setLoaded | evalLoad | settle | turn | rouse | supply => rfl

/-- The actions that are not refused in a run, each as done inside an event loop. -/
def accepted (env : Environment) : List Action → List Action
  | [] => []
  | action :: actions =>
    if (env.refusal? action).isSome then env.accepted actions
    else action.inside :: (env.perform action).2.accepted actions

/-- A run does what its accepted actions do. -/
theorem Equipped.run_accepted (h : env.Equipped) (actions : List Action) :
    (env.run (env.accepted actions)).2 = (env.run actions).2 ∧
      reportsOf (env.run (env.accepted actions)).1 = reportsOf (env.run actions).1 := by
  induction actions generalizing env with
  | nil => exact ⟨rfl, rfl⟩
  | cons action actions ih =>
    rw [run_cons, accepted]
    cases hn : env.refusal? action with
    | some e =>
      rw [perform_refused hn]
      exact ih h
    | none =>
      obtain ⟨hafter, hreports⟩ := ih (h.next action)
      simp only [Option.isSome_none, Bool.false_eq_true, if_false]
      rw [run_cons, h.perform_inside hn, reportsOf_cons, hreports, hafter, ← reportsOf_cons]
      exact ⟨rfl, rfl⟩

/-- A run goes on after the accepted actions as it does after all of them. -/
theorem Equipped.run_accepted_append (h : env.Equipped) (actions more : List Action) :
    (env.run (env.accepted actions ++ more)).2 = (env.run (actions ++ more)).2 ∧
      reportsOf (env.run (env.accepted actions ++ more)).1 =
        reportsOf (env.run (actions ++ more)).1 := by
  obtain ⟨hafter, hreports⟩ := h.run_accepted actions
  have happend : ∀ answers later, reportsOf (answers ++ later) =
      reportsOf answers ++ reportsOf later := fun _ _ => List.filterMap_append
  rw [run_append, run_append, hafter]
  refine ⟨rfl, ?_⟩
  rw [happend, happend, hreports]

/-- The accepted ones of loading actions are loading actions, done inside an event loop. -/
theorem accepted_loading {actions : List Action} (hall : ∀ a ∈ actions, a.isLoading = true) :
    ∀ a ∈ env.accepted actions, a.isLoading = true ∧ a.caller = .insideEventLoop := by
  induction actions generalizing env with
  | nil => nofun
  | cons action actions ih =>
    have hrest : ∀ env' : Environment, ∀ a ∈ env'.accepted actions,
        a.isLoading = true ∧ a.caller = .insideEventLoop := fun env' =>
      ih fun a ha => hall a (List.mem_cons_of_mem _ ha)
    have hfirst : action.inside.isLoading = true ∧ action.inside.caller = .insideEventLoop := by
      have hloading := hall action List.mem_cons_self
      cases action <;> exact ⟨hloading, rfl⟩
    intro a ha
    rw [accepted] at ha
    split at ha
    · exact hrest env a ha
    · rcases List.mem_cons.1 ha with rfl | ha
      · exact hfirst
      · exact hrest _ a ha

/-- Inside an event loop an environment that retrieves accepts all loading actions. -/
theorem Retrieving.accepted_inside (h : env.Retrieving) {actions : List Action}
    (hall : ∀ a ∈ actions, a.isLoading = true ∧ a.caller = .insideEventLoop) :
    env.accepted actions = actions := by
  induction actions generalizing env with
  | nil => rfl
  | cons action actions ih =>
    obtain ⟨hloading, hinside⟩ := hall action List.mem_cons_self
    have hnone : env.refusal? action = none ∧ action.inside = action := by
      cases action with
      | load caller | loadWith caller | documentReady caller =>
        cases hinside
        simp [refusal?, loadRefusal?, h.behavior, canStart_insideEventLoop, Action.inside]
      | settle | turn | rouse => exact ⟨rfl, rfl⟩
      | setLoaded | evalLoad | supply => cases hloading
    have hrest := ih (h.kept (h.kept_perform hloading))
      fun a ha => hall a (List.mem_cons_of_mem _ ha)
    rw [accepted, hnone.1, hnone.2, hrest]
    rfl

/-! ## While modules are held back -/

/-- Nothing has been retrieved, and nothing is under way. -/
structure Untouched (fresh env : Environment) : Prop where
  transport : env.transport = fresh.transport
  runnable : env.schedule.runnable = []
  sleeping : env.schedule.sleeping = []
  arrived : env.schedule.arrived = []
  inFlight : env.inFlight = 0

/-- Whether anything was retrieved is seen from the transport, the schedule and what is in
flight. -/
theorem Untouched.of_eq (h : Untouched fresh env) (ht : env'.transport = env.transport)
    (hs : env'.schedule = env.schedule) (hf : env'.inFlight = env.inFlight) :
    Untouched fresh env' := by
  refine ⟨ht.trans h.transport, ?_, ?_, ?_, hf.trans h.inFlight⟩
  · rw [hs, h.runnable]
  · rw [hs, h.sleeping]
  · rw [hs, h.arrived]

/-- Where nothing is under way nothing has arrived. -/
theorem Untouched.drain (h : Untouched fresh env) : env.drain = (.ok (), env) := by
  rw [Environment.drain, h.arrived, receiveAll]

/-- A module that is held back is ordered, and its retrieval is put off. -/
theorem introduce_held (hd : env.documentWrite = true) (spec : ModuleSpec) :
    ∃ journal, env.introduce spec = (.ok (), { env with
      journal
      order := env.order.enqueue spec.id
      pendingWrites := env.pendingWrites ++ [spec] }) := by
  obtain ⟨journal, -, hintroduce⟩ := env.introduce_eq spec
  exact ⟨journal, hintroduce.trans (if_pos hd)⟩

/-- While modules are held back, new ones are registered and held back too. -/
theorem register_held (hd : env.documentWrite = true) (paths : List String) :
    ∃ journal store order pendingWrites,
      env.register paths = (.ok (), { env with journal, store, order, pendingWrites }) := by
  induction paths generalizing env with
  | nil => exact ⟨env.journal, env.store, env.order, env.pendingWrites, rfl⟩
  | cons path paths ih =>
    by_cases hnew : env.store.get? (env.specFor path).id = none
    · obtain ⟨journal, hintroduce⟩ := @introduce_held
        { env with store := (env.store.ensure (env.specFor path)).2 } hd (env.specFor path)
      obtain ⟨journal', store, order, pendingWrites, hrest⟩ := @ih { env with
        journal
        store := (env.store.ensure (env.specFor path)).2
        order := env.order.enqueue (env.specFor path).id
        pendingWrites := env.pendingWrites ++ [env.specFor path] } hd
      rw [register_cons_new env paths hnew, hintroduce]
      exact ⟨journal', store, order, pendingWrites, hrest⟩
    · rw [register_cons_known env paths hnew]
      exact ih hd

/-- Loading retrieves nothing while modules are held back. -/
theorem Untouched.retrieveAll (h : Untouched fresh env) (hd : env.documentWrite = true)
    (caller : Caller) (paths : List String) : Untouched fresh (env.retrieveAll caller paths).2 := by
  obtain ⟨journal, store, order, pendingWrites, hregister⟩ := register_held hd paths
  have hnext : Untouched fresh { env with journal, store, order, pendingWrites } := h.of_eq rfl rfl rfl
  have hguard : (!env.documentWrite && !env.canStart caller) = false := by
    rw [hd]
    rfl
  have hall : env.retrieveAll caller paths =
      (.ok (), { env with journal, store, order, pendingWrites }) := by
    rw [Environment.retrieveAll, hguard, hregister]
    exact hnext.drain
  rw [hall]
  exact hnext

/-- Letting go ends the phase, unless it is refused. -/
theorem documentReady_held (hr : env.Retrieving) (hd : env.documentWrite = true) (caller : Caller) :
    (∃ e, env.documentReady caller = (.error e, env)) ∨
      (env.documentReady caller).2.documentWrite = false := by
  cases hc : env.canStart caller with
  | false => exact .inl ⟨.noEventLoop, documentReady_refused hd hc⟩
  | true =>
    rw [documentReady_of_held hd hc]
    exact .inr ((release_leads caller hr hd).kept.released rfl)

/-- Loading retrieves nothing unless it ends the phase in which modules are held back. -/
theorem Untouched.loadWith (h : Untouched fresh env) (hr : env.Retrieving)
    (hd : env.documentWrite = true) (caller : Caller) (paths : List String) (atOnce : Bool) :
    Untouched fresh (env.loadWith caller paths atOnce).2 ∨
      (env.loadWith caller paths atOnce).2.documentWrite = false := by
  unfold Environment.loadWith
  rw [hr.behavior]
  simp only [hd, Bool.and_true]
  cases atOnce with
  | false => exact .inl (h.retrieveAll hd caller paths)
  | true =>
    rw [if_pos rfl]
    rcases documentReady_held hr hd caller with ⟨e, he⟩ | hready
    · rw [he]
      exact .inl h
    · right
      rcases hout : env.documentReady caller with ⟨e | u, env'⟩ <;> rw [hout] at hready
      · exact hready
      · exact (composes_documentWrite.retrieveAll env' caller paths).trans hready

/-- As long as modules are held back, loading leaves alone what they are retrieved from. -/
theorem Untouched.perform (h : Untouched fresh env) (hr : env.Retrieving)
    (hd : env.documentWrite = true) {action : Action} (ha : action.isLoading = true) :
    Untouched fresh (env.perform action).2 ∨ (env.perform action).2.documentWrite = false := by
  cases action with
  | load caller paths => exact h.loadWith hr hd caller paths env.config.forceAsync
  | loadWith caller paths atOnce => exact h.loadWith hr hd caller paths atOnce
  | documentReady caller =>
    rcases documentReady_held hr hd caller with ⟨e, he⟩ | hready
    · left
      rw [Environment.perform, he]
      exact h
    · exact .inr hready
  | settle =>
    left
    obtain ⟨journal, hreport⟩ := env.report_frame
    rw [Environment.perform, settle_of_idle h.inFlight h.arrived, hreport]
    exact h.of_eq rfl rfl rfl
  | turn n =>
    left
    show Untouched fresh (env.turn n)
    rw [turn_eq_stir]
    rcases env.stir_cases fun schedule medium => schedule.turn medium n with ⟨medium, ht⟩ | hsame
    · rw [stir_of_concurrent ht]
      have hturn : env.schedule.turn medium n = (env.schedule, medium) := by
        simp [Schedule.turn, h.runnable]
      rw [hturn]
      exact h.of_eq ht.symm rfl rfl
    · rw [hsame]
      exact h
  | rouse n =>
    left
    have hrouse : env.schedule.rouse n = env.schedule := by simp [Schedule.rouse, h.sleeping]
    exact h.of_eq rfl hrouse rfl
  | setLoaded | evalLoad | supply => cases ha

/-- Loading actions keep what no step changes. -/
theorem Retrieving.kept_run (h : env.Retrieving) {actions : List Action}
    (hall : ∀ a ∈ actions, a.isLoading = true) : env.Kept (env.run actions).2 := by
  induction actions generalizing env with
  | nil => exact .refl env
  | cons action actions ih =>
    have hk := h.kept_perform (hall action List.mem_cons_self)
    exact hk.trans (ih (h.kept hk) fun a ha => hall a (List.mem_cons_of_mem _ ha))

/-- Nothing is retrieved in a run after which the document is not ready. -/
theorem Untouched.run (h : Untouched fresh env) (hr : env.Retrieving) {actions : List Action}
    (hall : ∀ a ∈ actions, a.isLoading = true) (hd : (env.run actions).2.documentWrite = true) :
    Untouched fresh (env.run actions).2 := by
  induction actions generalizing env with
  | nil => exact h
  | cons action actions ih =>
    have hloading := hall action List.mem_cons_self
    have hrest : ∀ a ∈ actions, a.isLoading = true := fun a ha => hall a (List.mem_cons_of_mem _ ha)
    have hk := hr.kept_perform hloading
    have hnext := (hr.kept hk).kept_run hrest
    -- The phase lasts to the end, so it has lasted until here.
    rcases h.perform hr (hk.documentWrite (hnext.documentWrite hd)) hloading with hsame | hended
    · exact ih hsame (hr.kept hk) hrest hd
    · have hnot := hnext.released hended
      rw [run_cons] at hd
      simp only [hnot] at hd
      cases hd

/-! ## Two runs -/

/-- Where a module is, is what was told last, or its id under the base. -/
theorem specFor_withSpecs {config : Configuration} {transport : Transport}
    {engine : Script.Engine} {made : Environment} (h : make config transport engine = .ok made)
    (specs : List ModuleSpec) (id : String) :
    (made.withSpecs specs).specFor id =
      ((Table.empty.setAll (specs.map fun spec => (spec.id, spec))).get? id).getD
        ⟨id, resolveLocation config.base id, false⟩ := by
  unfold make at h
  split at h
  · cases h
  · split at h
    · cases h
    · cases h
      rfl

/-- With retrievals that run beside the caller, any loading that is settled in the end, once the
document is ready, evaluates the modules asked for as plain loading does, puts them into the order,
each where it was asked for first, and asks for each of them once. -/
theorem Fresh.run_ready (h : env.Fresh) (hhost : env.host = .browser) {bundle : Bundle}
    (ht : env.transport = .concurrent (.bundle bundle)) {actions : List Action}
    (hall : ∀ a ∈ actions, a.isLoading = true) :
    let final := [Action.documentReady .insideEventLoop, .settle]
    let asked := ((env.accepted actions).flatMap Action.paths).eraseDups
    let plain := Plain.load bundle.content env.config.wrapOptions (asked.map env.specFor) env.layer
    let after := (env.run (actions ++ final)).2
    (reportsOf (env.run (actions ++ final)).1).flatMap (·.evaluated) = plain.evaluated ∧
      after.layer = plain.layer ∧ (∀ id, after.store.get? id = plain.records.find? (·.id == id)) ∧
      after.order.order = asked ∧
      ∃ requests, after.transport =
          .concurrent (.bundle { bundle with requests := bundle.requests ++ requests }) ∧
        requests.Perm (asked.map fun id => (env.specFor id).location) := by
  intro final asked plain after
  obtain ⟨hr, hf⟩ := h.browser hhost
  have hequipped : env.Equipped := ⟨fun _ => hr, fun hb => absurd hr.behavior hb⟩
  have hserves : env.transport.Serves bundle.content := by
    rw [ht]
    rintro medium (hm | hm) <;> cases hm
    rfl
  have hcalls := @accepted_loading env actions hall
  have hbefore : ∀ a ∈ env.accepted actions ++ [.documentReady .insideEventLoop],
      a.isLoading = true ∧ a.caller = .insideEventLoop := by
    intro a ha
    rcases List.mem_append.1 ha with ha | ha
    · exact hcalls a ha
    · rw [List.mem_singleton.1 ha]
      exact ⟨rfl, rfl⟩
  have hready : (env.run (env.accepted actions ++ [.documentReady .insideEventLoop])).2.documentWrite =
      false := by
    have hended := @documentWrite_run env hr hf (env.accepted actions) [] (by simpa using hcalls)
    rwa [List.append_nil] at hended
  have hpaths : (env.accepted actions ++ [Action.documentReady .insideEventLoop]).flatMap
      Action.paths = (env.accepted actions).flatMap Action.paths := by
    rw [List.flatMap_append, List.flatMap_singleton]
    exact List.append_nil _
  obtain ⟨hafter, hreports⟩ := hequipped.run_accepted_append actions final
  have hfinal : env.accepted actions ++ final =
      env.accepted actions ++ [.documentReady .insideEventLoop] ++ [.settle] := by
    rw [List.append_assoc]
    rfl
  rw [hfinal] at hafter hreports
  generalize env.accepted actions ++ [Action.documentReady .insideEventLoop] = before at *
  -- The run ends with the report that is taken from `env'`, where nothing is in transit any more.
  obtain ⟨env', journal, hresult, -, hsteps, hnone, hmirrored⟩ :=
    h.run_settled hr hf hserves hbefore hready
  have hk : env.Kept env' := hsteps.kept
  have hspec : env'.specFor = env.specFor := funext hk.specFor
  have hlooks : Moment.LooksUp (.bundle bundle) ⟨env, [], .empty⟩ := by
    refine ⟨[], by rw [ht, Medium.lookUps_nil], ?_⟩
    simp [Moment.toLookUp, h.pendingWrites, h.schedule, Schedule.idle, Schedule.outstanding, h.order,
      LoadOrder.initial]
  obtain ⟨requests, htransport, hrequests⟩ := (hsteps.looksUp (id_specFor h.named) hlooks).all hnone
  obtain ⟨hevaluated, -, hlayer, hstore, -⟩ := hmirrored.plain hnone
  have horder := hmirrored.order
  have hasked : ((Log.empty.asking (before.flatMap Action.paths)).reporting
      (reportsOf (env.run before).1)).asked.eraseDups = asked := by
    rw [hpaths]
    rfl
  simp only [hasked, hk.config, hspec] at hevaluated hlayer hstore horder hrequests
  rw [hresult] at hafter hreports
  have hend : after = { env' with journal, progress := ⟨[], []⟩ } := hafter.symm
  rw [← hreports, hend]
  refine ⟨?_, hlayer, hstore, horder, requests, htransport, ?_⟩
  · rw [← hevaluated]
    simp [Moment.evaluated, reportsOf, reportNow, Log.reporting, Log.asking, Log.empty]
  · rwa [horder] at hrequests

/-- Two loaders of a browser have retrievals that run beside the caller; one begins by holding modules
back, and the other begins without that phase.  They are given the same calls, save for calls that are
refused, the document becomes ready, and both are settled; what goes on between the calls may differ.
Then both end with the same order, namespace and records, have evaluated the same modules, and have
asked for each module just once.  While modules are held back, none is asked for, and a phase that has
ended does not begin again. -/
theorem run_phase (config : Configuration) (hhost : config.host = .browser) (bundle : Bundle)
    {engine : Script.Engine} (made forced : Environment)
    (hmade : make { config with forceAsync := false } (.concurrent (.bundle bundle)) engine = .ok made)
    (hforced :
      make { config with forceAsync := true } (.concurrent (.bundle bundle)) engine = .ok forced)
    (specs : List ModuleSpec) (actions others : List Action)
    (hall : ∀ a ∈ actions ++ others, a.isLoading = true)
    (hsame : ((made.withSpecs specs).accepted actions).filter Action.isCall =
      ((forced.withSpecs specs).accepted others).filter Action.isCall) :
    let env := made.withSpecs specs
    let direct := forced.withSpecs specs
    let final := [Action.documentReady .insideEventLoop, .settle]
    let (answers, after) := env.run (actions ++ final)
    let (answers', after') := direct.run (others ++ final)
    let asked := ((env.accepted actions).flatMap Action.paths).eraseDups
    let requested := fun e : Environment => ∃ requests,
      e.transport = .concurrent (.bundle { bundle with requests := bundle.requests ++ requests }) ∧
        requests.Perm (asked.map fun id => (env.specFor id).location)
    (env.documentWrite = true ∧ direct.documentWrite = false) ∧
      (after.order.order = asked ∧ after'.order.order = asked) ∧
      (reportsOf answers).flatMap (·.evaluated) = (reportsOf answers').flatMap (·.evaluated) ∧
      after.layer = after'.layer ∧ (∀ id, after.store.get? id = after'.store.get? id) ∧
      (requested after ∧ requested after') ∧
      ((∀ a ∈ actions, a.caller = .insideEventLoop) → env.accepted actions = actions) ∧
      ((∀ a ∈ others, a.caller = .insideEventLoop) → direct.accepted others = others) ∧
      ∀ earlier later, (∀ a ∈ earlier ++ later, a.isLoading = true) →
        ((env.run earlier).2.documentWrite = true →
          (env.run earlier).2.transport = .concurrent (.bundle bundle)) ∧
        ((env.run earlier).2.documentWrite = false →
          (env.run (earlier ++ later)).2.documentWrite = false) := by
  intro env direct final
  obtain ⟨hmadefresh, hconfig, hchosen⟩ := fresh_of_make hmade
  obtain ⟨hforcedfresh, hconfig', hchosen'⟩ := fresh_of_make hforced
  have hfresh : env.Fresh := hmadefresh.withSpecs specs
  have hfresh' : direct.Fresh := hforcedfresh.withSpecs specs
  have henv : env.config = { config with forceAsync := false } := hconfig
  have hdirect : direct.config = { config with forceAsync := true } := hconfig'
  have hbrowser : env.host = .browser := by rw [host, henv, hhost]
  have hbrowser' : direct.host = .browser := by rw [host, hdirect, hhost]
  have hprofile : env.profile = direct.profile := by
    rw [Environment.profile, Environment.profile, hbrowser, hbrowser']
  rw [hhost] at hchosen hchosen'
  have ht : env.transport = .concurrent (.bundle bundle) := (Except.ok.inj hchosen).symm
  have ht' : direct.transport = .concurrent (.bundle bundle) := (Except.ok.inj hchosen').symm
  -- Both read the same modules with the same options in the same namespace.
  have hspec : direct.specFor = env.specFor := funext fun id =>
    (specFor_withSpecs hforced specs id).trans (specFor_withSpecs hmade specs id).symm
  have hoptions : direct.config.wrapOptions = env.config.wrapOptions := by rw [henv, hdirect]; rfl
  have hlayer : direct.layer = env.layer := (layer_of_make hforced).trans (layer_of_make hmade).symm
  have hpaths : (direct.accepted others).flatMap Action.paths =
      (env.accepted actions).flatMap Action.paths := by
    rw [← flatMap_paths_filter_isCall, ← hsame, flatMap_paths_filter_isCall]
  obtain ⟨hevaluated, hafter, hstore, horder, hrequests⟩ :=
    hfresh.run_ready hbrowser ht fun a ha => hall a (List.mem_append_left _ ha)
  obtain ⟨hevaluated', hafter', hstore', horder', hrequests'⟩ :=
    hfresh'.run_ready hbrowser' ht' fun a ha => hall a (List.mem_append_right _ ha)
  rw [hpaths, hspec, hoptions, hlayer] at hevaluated' hafter' hstore'
  rw [hpaths] at horder' hrequests'
  rw [hspec] at hrequests'
  obtain ⟨hr, -⟩ := hfresh.browser hbrowser
  refine ⟨⟨?_, ?_⟩, ⟨horder, horder'⟩, hevaluated.trans hevaluated'.symm, hafter.trans hafter'.symm,
    fun id => (hstore id).trans (hstore' id).symm, ⟨hrequests, hrequests'⟩, fun hinside => ?_,
    fun hinside => ?_, fun earlier later hloading => ⟨fun hd => ?_, fun hd => ?_⟩⟩
  · rw [hfresh.documentWrite, Environment.profile, hbrowser, henv]
    rfl
  · rw [hfresh'.documentWrite, hdirect, Bool.not_true, Bool.and_false]
  · exact hr.accepted_inside fun a ha => ⟨hall a (List.mem_append_left _ ha), hinside a ha⟩
  · obtain ⟨hr', -⟩ := hfresh'.browser hbrowser'
    exact hr'.accepted_inside fun a ha => ⟨hall a (List.mem_append_right _ ha), hinside a ha⟩
  · have huntouched : Untouched env env := by
      refine ⟨rfl, ?_, ?_, ?_, hfresh.inFlight⟩ <;> rw [hfresh.schedule] <;> rfl
    have hend := huntouched.run hr (fun a ha => hloading a (List.mem_append_left _ ha)) hd
    exact hend.transport.trans ht
  · have hk := hr.kept_run fun a ha => hloading a (List.mem_append_left _ ha)
    have hlater := (hr.kept hk).kept_run fun a ha => hloading a (List.mem_append_right _ ha)
    rw [run_append]
    exact hlater.released hd

/-- Two modules are asked for from outside an event loop.  They are held back by the one loader, and
refused by the other, which is asked again inside; both end with the two evaluated. -/
theorem run_phase_outside :
    let config := { Configuration.default with host := .browser, aliases := [] }
    let bundle := Bundle.empty.add [("a.js", "log('a')"), ("b.js", "log('b')")] [("a.js", 20)] []
    let specs := [ModuleSpec.mk "a" "a.js" false, ⟨"b", "b.js", false⟩]
    let outside := Action.load .outsideEventLoop ["a", "b"]
    let final := [Action.documentReady .insideEventLoop, .settle]
    ∃ made, make { config with forceAsync := false } (.concurrent (.bundle bundle)) = .ok made ∧
      ∃ forced, make { config with forceAsync := true } (.concurrent (.bundle bundle)) = .ok forced ∧
      let others := [outside, outside.inside, .turn 0, .settle]
      let (answers, after) := (made.withSpecs specs).run ([outside, .settle] ++ final)
      let (answers', after') := (forced.withSpecs specs).run (others ++ final)
      (reportsOf answers).flatMap (·.evaluated) = ["a", "b"] ∧
        (reportsOf answers').flatMap (·.evaluated) = ["a", "b"] ∧
        after'.layer = after.layer ∧ after.layer.engine.output = ["a", "b"] := by
  intro config bundle specs outside final
  obtain ⟨made, hmade, hevaluated, houtput, haccepted⟩ : ∃ made,
      make { config with forceAsync := false } (.concurrent (.bundle bundle)) = .ok made ∧
      (reportsOf ((made.withSpecs specs).run ([outside, .settle] ++ final)).1).flatMap (·.evaluated) =
        ["a", "b"] ∧
      ((made.withSpecs specs).run ([outside, .settle] ++ final)).2.layer.engine.output = ["a", "b"] ∧
      (made.withSpecs specs).accepted [outside, .settle] = [outside.inside, .settle] :=
    ⟨_, rfl, by decide +kernel +revert, by decide +kernel +revert, rfl⟩
  obtain ⟨forced, hforced, haccepted'⟩ : ∃ forced,
      make { config with forceAsync := true } (.concurrent (.bundle bundle)) = .ok forced ∧
      (forced.withSpecs specs).accepted [outside, outside.inside, .turn 0, .settle] =
        [outside.inside, .turn 0, .settle] := ⟨_, rfl, rfl⟩
  obtain ⟨-, -, hsame, hlayer, -⟩ := run_phase config rfl bundle made forced hmade hforced specs
    [outside, .settle] [outside, outside.inside, .turn 0, .settle] (by decide)
    (by rw [haccepted, haccepted']; rfl)
  exact ⟨made, hmade, forced, hforced, hevaluated, hsame.symm.trans hevaluated, hlayer.symm, houtput⟩

end Environment

end ModuleLoader
