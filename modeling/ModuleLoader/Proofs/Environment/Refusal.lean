import ModuleLoader.Proofs.Environment.Recording

/-!
# Refused calls

A call is refused where the host does not offer the operation, and where a retrieval would have to be
started from outside an event loop.  Both are found out before anything is registered, let go or
evaluated, in every state that a loader can come to be in (`record_outcome`).  Main statement:
`Reachable.run_refused`, a refused call leaves the environment as it was, so that nothing done later
tells it from one in which the call was not made.
-/

set_option autoImplicit false

namespace ModuleLoader

/-- Whether an error says that the operation is not offered, or not from where it was called. -/
def LoaderError.isRefusal : LoaderError → Bool
  | .unsupported _ _ | .noEventLoop => true
  | _ => false

/-- The same call, made inside an event loop. -/
def Action.inside : Action → Action
  | .load _ paths => .load .insideEventLoop paths
  | .loadWith _ paths atOnce => .loadWith .insideEventLoop paths atOnce
  | .documentReady _ => .documentReady .insideEventLoop
  | action => action

/-- A host that does not retrieve modules does not hold them back either. -/
theorem Host.documentWrite_of_behavior (h : Host) (hb : h.profile.behavior ≠ .retrieve) :
    h.profile.documentWrite = false := by
  cases h <;> first | rfl | exact absurd rfl hb

namespace Environment

/-! ## What is refused -/

/-- What a request to load is refused with, if it is. -/
def loadRefusal? (env : Environment) (caller : Caller) (atOnce : Bool) : Option LoaderError :=
  match env.profile.behavior with
  | .unsupported => some (.unsupported env.host.name "load")
  | .markOnly | .alwaysLoaded => none
  | .retrieve =>
    -- While modules are held back, none is started, unless loading at once lets them go.
    if !env.canStart caller && (atOnce || !env.documentWrite) then some .noEventLoop else none

/-- What an action is refused with, if it is. -/
def refusal? (env : Environment) : Action → Option LoaderError
  | .load caller _ => env.loadRefusal? caller env.config.forceAsync
  | .loadWith caller _ atOnce => env.loadRefusal? caller atOnce
  | .documentReady caller =>
    if env.documentWrite && !env.canStart caller then some .noEventLoop else none
  | .evalLoad _ _ _ =>
    if env.acceptsCode then none else some (.unsupported env.host.name "eval_load")
  | .setLoaded _ | .settle | .turn _ | .rouse _ | .supply _ => none

variable {env env' : Environment} {e : LoaderError}

/-- Where retrievals cannot be started, a document that is not ready is not told so, and nothing
changes. -/
theorem documentReady_refused {caller : Caller} (hd : env.documentWrite = true)
    (hc : env.canStart caller = false) : env.documentReady caller = (.error .noEventLoop, env) := by
  simp [documentReady, hd, hc]

/-- Where retrievals cannot be started, nothing is loaded, and nothing changes. -/
theorem retrieveAll_refused {caller : Caller} (hd : env.documentWrite = false)
    (hc : env.canStart caller = false) (paths : List String) :
    env.retrieveAll caller paths = (.error .noEventLoop, env) := by
  simp [retrieveAll, hd, hc]

/-- A request that is refused changes nothing. -/
theorem loadWith_refused {caller : Caller} {atOnce : Bool}
    (h : env.loadRefusal? caller atOnce = some e) (paths : List String) :
    env.loadWith caller paths atOnce = (.error e, env) := by
  unfold loadRefusal? at h
  unfold loadWith
  cases hb : env.profile.behavior with
  | unsupported =>
    rw [hb] at h
    cases h
    rfl
  | markOnly | alwaysLoaded =>
    rw [hb] at h
    cases h
  | retrieve =>
    simp only [hb, Option.ite_none_right_eq_some, Bool.and_eq_true, Bool.not_eq_true',
      Bool.or_eq_true, Option.some.injEq] at h
    obtain ⟨⟨hc, hnow⟩, rfl⟩ := h
    cases hd : env.documentWrite with
    | false => simp only [Bool.and_false, Bool.false_eq_true, if_false, retrieveAll_refused hd hc]
    | true =>
      have hatOnce : atOnce = true := hnow.resolve_right (by simp [hd])
      simp only [hatOnce, Bool.and_self, if_true, documentReady_refused hd hc]

/-- Whatever state it is in, an environment stays as it is when it refuses a call. -/
theorem perform_refused {action : Action} (h : env.refusal? action = some e) :
    env.perform action = (.error e, env) := by
  cases action with
  | load caller paths =>
    rw [perform, load, loadWith_refused h paths]
    rfl
  | loadWith caller paths atOnce =>
    rw [perform, loadWith_refused h paths]
    rfl
  | documentReady caller =>
    simp only [refusal?, Option.ite_none_right_eq_some, Bool.and_eq_true, Bool.not_eq_true',
      Option.some.injEq] at h
    obtain ⟨⟨hd, hc⟩, rfl⟩ := h
    rw [perform, documentReady_refused hd hc]
    rfl
  | evalLoad path hasSourceMap code =>
    simp only [refusal?, Option.ite_none_left_eq_some, Bool.not_eq_true, Option.some.injEq] at h
    obtain ⟨ha, rfl⟩ := h
    simp only [perform, evalLoad, ha, Bool.not_false, if_true]
    rfl
  | setLoaded | settle | turn | rouse | supply => cases h

/-- What an action is refused with is a refusal. -/
theorem isRefusal_of_refusal? {action : Action} (h : env.refusal? action = some e) :
    e.isRefusal = true := by
  have hload : ∀ {caller : Caller} {atOnce : Bool}, env.loadRefusal? caller atOnce = some e →
      e.isRefusal = true := by
    intro caller atOnce hl
    unfold loadRefusal? at hl
    split at hl
    · cases hl
      rfl
    · cases hl
    · cases hl
    · rw [Option.ite_none_right_eq_some] at hl
      cases hl.2
      rfl
  cases action with
  | load | loadWith => exact hload h
  | documentReady =>
    simp only [refusal?, Option.ite_none_right_eq_some] at h
    cases h.2
    rfl
  | evalLoad =>
    simp only [refusal?, Option.ite_none_left_eq_some] at h
    cases h.2
    rfl
  | setLoaded | settle | turn | rouse | supply => cases h

/-! ## What is carried out -/

/-- An operation keeps the kind of the transport, and its error is no refusal. -/
structure CarriesOut (env : Environment) (outcome : Except LoaderError Unit × Environment) :
    Prop where
  concurrent : outcome.2.transport.isConcurrent = env.transport.isConcurrent
  none : outcome.2.transport = .none ↔ env.transport = .none
  error : ∀ e, outcome.1 = .error e → e.isRefusal = false

namespace CarriesOut

variable {outcome : Except LoaderError Unit × Environment}

/-- A success is no refusal. -/
theorem ofOk (h : env'.transport = env.transport) : CarriesOut env (.ok (), env') :=
  ⟨by rw [h], by rw [h], nofun⟩

/-- An operation may follow on something that keeps the transport. -/
theorem ofTransport (h : CarriesOut env' outcome) (ht : env'.transport = env.transport) :
    CarriesOut env outcome := by
  obtain ⟨hconcurrent, hnone, herror⟩ := h
  rw [ht] at hconcurrent hnone
  exact ⟨hconcurrent, hnone, herror⟩

/-- Two operations that are carried out in turn are carried out. -/
theorem andThen {next : Environment → Except LoaderError Unit × Environment}
    (h : CarriesOut env outcome)
    (hnext : ∀ env', (env'.transport.isConcurrent = env.transport.isConcurrent) →
      (env'.transport = .none ↔ env.transport = .none) → CarriesOut env' (next env')) :
    CarriesOut env (ModuleLoader.andThen outcome next) := by
  rcases outcome with ⟨e | u, mid⟩
  · exact h
  · have hsecond := hnext mid h.concurrent h.none
    exact ⟨hsecond.concurrent.trans h.concurrent, hsecond.none.trans h.none, hsecond.error⟩

/-- A flush is carried out. -/
theorem flush (env : Environment) : CarriesOut env env.flush := by
  obtain ⟨journal, progress, hframe⟩ := env.flush_frame
  have htransport : env.flush.2.transport = env.transport := by rw [hframe]
  refine ⟨by rw [htransport], by rw [htransport], fun e he => ?_⟩
  cases hout : env.orderFlush.outcome with
  | ok r =>
    rw [(env.flush_of_ok hout).1] at he
    cases he
  | error failure =>
    rw [(env.flush_of_error hout).1] at he
    cases he
    rfl

/-- Taking account of a retrieval is carried out. -/
theorem complete (env : Environment) (id : String) (result : Except RetrievalFailure String) :
    CarriesOut env (env.complete id result) := by
  obtain ⟨journal, progress, hn⟩ := env.noteArrival_frame id result
  have hnoted : (env.noteArrival id result).transport = env.transport := by rw [hn]
  cases hs : env.stopsAt id result with
  | false =>
    rw [complete_of_goesOn hs]
    exact (flush _).ofTransport hnoted
  | true =>
    obtain ⟨failure, hc⟩ := complete_of_stops hs
    rw [hc]
    refine ⟨by rw [hnoted], by rw [hnoted], fun e he => ?_⟩
    cases he
    rfl

/-- Taking an arrival is carried out. -/
theorem receive (env : Environment) (arrival : Arrival) (rest : List Arrival) :
    CarriesOut env (env.receive arrival rest) := (complete _ arrival.id arrival.result).ofTransport rfl

/-- Taking several arrivals is carried out. -/
theorem receiveAll (env : Environment) (arrivals : List Arrival) :
    CarriesOut env (env.receiveAll arrivals) := by
  induction arrivals generalizing env with
  | nil => exact .ofOk rfl
  | cons arrival rest ih =>
    rw [receiveAll_cons]
    exact (receive env arrival rest).andThen fun env' _ _ => ih env'

/-- Taking everything that has arrived is carried out. -/
theorem drain (env : Environment) : CarriesOut env env.drain := receiveAll env env.schedule.arrived

/-- Starting a retrieval is carried out, where there is a transport. -/
theorem start (h : env.transport ≠ .none) (spec : ModuleSpec) : CarriesOut env (env.start spec) := by
  unfold Environment.start
  split
  · exact .ofOk rfl
  · rename_i medium ht
    have hcomplete := complete { env with transport := .serial (medium.lookUp spec.location).2 }
      spec.id (medium.lookUp spec.location).1
    exact ⟨hcomplete.concurrent.trans (by rw [ht]; rfl), hcomplete.none.trans (by simp [ht]),
      hcomplete.error⟩
  · rename_i ht
    exact absurd ht h

/-- Starting several retrievals is carried out, where there is a transport. -/
theorem startAll (env : Environment) (h : env.transport ≠ .none) (specs : List ModuleSpec) :
    CarriesOut env (env.startAll specs) := by
  induction specs generalizing env with
  | nil => exact .ofOk rfl
  | cons spec specs ih =>
    rw [startAll_cons]
    exact (start h spec).andThen fun env' _ hnone => ih env' fun hn => h (hnone.1 hn)

/-- Telling the document ready is carried out, where retrievals can be started. -/
theorem documentReady (h : env.transport ≠ .none) {caller : Caller}
    (hc : env.documentWrite = true → env.canStart caller = true) :
    CarriesOut env (env.documentReady caller) := by
  cases hd : env.documentWrite with
  | false =>
    have hnothing : env.documentReady caller = (.ok (), env) := by
      simp [Environment.documentReady, hd]
    rw [hnothing]
    exact .ofOk rfl
  | true =>
    rw [documentReady_of_held hd (hc hd)]
    have hstart := startAll { env with documentWrite := false, pendingWrites := [] } h
      env.pendingWrites
    exact (hstart.andThen fun env' _ _ => drain env').ofTransport rfl

/-- Introducing a module is carried out, where there is a transport. -/
theorem introduce (env : Environment) (h : env.transport ≠ .none) (spec : ModuleSpec) :
    CarriesOut env (env.introduce spec) := by
  obtain ⟨journal, -, hintroduce⟩ := env.introduce_eq spec
  rw [hintroduce]
  split
  · exact .ofOk rfl
  · have hstart := @start { env with journal, order := env.order.enqueue spec.id } h spec
    exact hstart.ofTransport rfl

/-- Registering modules is carried out, where there is a transport. -/
theorem register (h : env.transport ≠ .none) (paths : List String) :
    CarriesOut env (env.register paths) := by
  induction paths generalizing env with
  | nil => exact .ofOk rfl
  | cons path paths ih =>
    by_cases hnew : env.store.get? (env.specFor path).id = .none
    · rw [register_cons_new env paths hnew]
      have hfirst := introduce { env with store := (env.store.ensure (env.specFor path)).2 } h
        (env.specFor path)
      have hhere : CarriesOut env ({ env with
          store := (env.store.ensure (env.specFor path)).2 }.introduce (env.specFor path)) :=
        hfirst.ofTransport rfl
      exact hhere.andThen fun env' _ hnone => ih fun hn => h (hnone.1 hn)
    · rw [register_cons_known env paths hnew]
      exact ih h

/-- Loading is carried out, where retrievals can be started or modules are held back. -/
theorem retrieveAll (h : env.transport ≠ .none) {caller : Caller}
    (hc : env.documentWrite = false → env.canStart caller = true) (paths : List String) :
    CarriesOut env (env.retrieveAll caller paths) := by
  have hguard : (!env.documentWrite && !env.canStart caller) = false := by
    cases hd : env.documentWrite with
    | false => simp [hc hd]
    | true => rfl
  have hbody : env.retrieveAll caller paths =
      ModuleLoader.andThen (env.register paths) Environment.drain := by
    rw [Environment.retrieveAll, hguard]
    rfl
  rw [hbody]
  exact (register h paths).andThen fun env' _ _ => drain env'

/-- Waiting for all retrievals is carried out. -/
theorem settleAll (env : Environment) : CarriesOut env env.settleAll := by
  have hawait : ∀ env : Environment, CarriesOut env (.ok (), env.await) := by
    intro env
    rw [await_eq_stir]
    rcases env.stir_cases Schedule.await with ⟨medium, ht⟩ | hnone
    · rw [stir_of_concurrent ht]
      exact ⟨by rw [ht]; rfl, by simp [ht], nofun⟩
    · rw [hnone]
      exact .ofOk rfl
  have hthen : ∀ {env : Environment} {outcome : Except LoaderError Unit × Environment},
      CarriesOut env.await outcome → CarriesOut env outcome := fun h =>
    ⟨h.concurrent.trans (hawait _).concurrent, h.none.trans (hawait _).none, h.error⟩
  fun_induction Environment.settleAll env with
  | case1 env hzero => exact .ofOk rfl
  | case2 env hne harr => exact hawait env
  | case3 env hne arrival rest harr e env' hr =>
    have hreceive := receive env.await arrival rest
    rw [hr] at hreceive
    exact hthen hreceive
  | case4 env hne arrival rest harr env' hr ih =>
    have hreceive := receive env.await arrival rest
    rw [hr] at hreceive
    exact hthen ⟨ih.concurrent.trans hreceive.concurrent, ih.none.trans hreceive.none, ih.error⟩

/-- Settling is carried out. -/
theorem settling (env : Environment) : CarriesOut env env.settling :=
  (drain env).andThen fun env' _ _ => settleAll env'

end CarriesOut

/-! ## Starting asks again -/

/-- Do one thing, where every start of a retrieval asks once more for an event loop. -/
def performAsking (env : Environment) (action : Action) :
    Except LoaderError (Option LoadReport) × Environment := (env.record action).outcome

/-! ## Reachable environments -/

/-- The environments that a loader can come to be, on any host. -/
inductive Reachable : Environment → Prop where
  | made {config : Configuration} {transport : Transport} {engine : Script.Engine}
      {env : Environment}
      (made : make config transport engine = .ok env) : Reachable env
  | withSpecs {env : Environment} (before : Reachable env) (specs : List ModuleSpec) :
      Reachable (env.withSpecs specs)
  | takeOutput {env : Environment} (before : Reachable env) : Reachable env.takeOutput.2
  | perform {env : Environment} (before : Reachable env) (action : Action) :
      Reachable (env.perform action).2

/-- A host that retrieves modules has a place to retrieve them from, and no other holds any back. -/
structure Equipped (env : Environment) : Prop where
  retrieving : env.profile.behavior = .retrieve → env.Retrieving
  released : env.profile.behavior ≠ .retrieve → env.documentWrite = false

/-- No step takes the means of a host away. -/
theorem Equipped.kept (h : env.Equipped) (hk : env.Kept env') : env'.Equipped where
  retrieving hb := by
    rw [hk.profile] at hb
    exact (h.retrieving hb).kept hk
  released hb := by
    rw [hk.profile] at hb
    exact hk.released (h.released hb)

/-- Taking modules as evaluated keeps what no step changes. -/
theorem kept_setAllLoaded (env : Environment) (ids : List String) :
    env.Kept (ids.foldl setLoaded env) := by
  induction ids generalizing env with
  | nil => exact .refl env
  | cons id ids ih =>
    have hfirst : env.Kept (env.setLoaded id) := ⟨rfl, rfl, Iff.rfl, fun hd => hd⟩
    exact hfirst.trans (ih _)

/-- Loading keeps what no step changes, on any host. -/
theorem Equipped.kept_loadWith (h : env.Equipped) (caller : Caller) (paths : List String)
    (atOnce : Bool) : env.Kept (env.loadWith caller paths atOnce).2 := by
  by_cases hb : env.profile.behavior = .retrieve
  · exact (loadWith_leads caller (h.retrieving hb) paths atOnce).kept
  · unfold loadWith
    split
    · exact .refl env
    · exact env.kept_setAllLoaded paths
    · exact env.kept_setAllLoaded paths
    · contradiction

/-- A flush keeps what no step changes. -/
theorem kept_flush (env : Environment) : env.Kept env.flush.2 := by
  obtain ⟨journal, progress, h⟩ := env.flush_frame
  rw [h]
  exact ⟨rfl, rfl, Iff.rfl, fun hd => hd⟩

/-- Evaluating given code keeps what no step changes. -/
theorem kept_evalLoad (env : Environment) (path : String) (hasSourceMap : Bool) (code : String) :
    env.Kept (env.evalLoad path hasSourceMap code).2 := by
  cases ha : env.acceptsCode with
  | false =>
    have hrefused : env.evalLoad path hasSourceMap code =
        (.error (.unsupported env.host.name "eval_load"), env) := by
      simp [evalLoad, ha]
    rw [hrefused]
    exact .refl env
  | true =>
    obtain ⟨journal, heval⟩ := evalLoad_eq ha path hasSourceMap code
    rw [heval]
    cases env.outcomeOf path hasSourceMap code with
    | ok u =>
      have hsettled : env.Kept { env with
          journal
          layer := env.layerAfter path hasSourceMap code
          store := env.store.force path .evaluated
          progress := ⟨env.progress.evaluated ++ [path], env.progress.failed⟩ } :=
        ⟨rfl, rfl, Iff.rfl, fun hd => hd⟩
      exact hsettled.trans (kept_flush _)
    | error failure => exact ⟨rfl, rfl, Iff.rfl, fun hd => hd⟩

/-- Settling keeps what no step changes. -/
theorem kept_settle (env : Environment) : env.Kept (env.perform .settle).2 := by
  have hk := (settling_leads .insideEventLoop env).kept
  rcases hs : env.settling with ⟨e | u, env'⟩
  · rw [hs] at hk
    rw [perform, settle_of_error hs]
    exact hk
  · rw [hs] at hk
    rw [perform, settle_of_ok hs]
    exact hk.trans env'.kept_report

/-- Telling the document ready keeps what no step changes. -/
theorem Equipped.kept_documentReady (h : env.Equipped) (caller : Caller) :
    env.Kept (env.documentReady caller).2 := by
  by_cases hb : env.profile.behavior = .retrieve
  · exact (documentReady_leads caller (h.retrieving hb)).kept
  · have hnothing : env.documentReady caller = (.ok (), env) := by
      simp [documentReady, h.released hb]
    rw [hnothing]
    exact .refl env

/-- No action takes the means of a host away. -/
theorem Equipped.next (h : env.Equipped) (action : Action) : (env.perform action).2.Equipped := by
  cases action with
  | load caller paths => exact h.kept (h.kept_loadWith caller paths env.config.forceAsync)
  | loadWith caller paths atOnce => exact h.kept (h.kept_loadWith caller paths atOnce)
  | documentReady caller => exact h.kept (h.kept_documentReady caller)
  | evalLoad path hasSourceMap code => exact h.kept (env.kept_evalLoad path hasSourceMap code)
  | settle => exact h.kept env.kept_settle
  | setLoaded id => exact h.kept ⟨rfl, rfl, Iff.rfl, fun hd => hd⟩
  | rouse n => exact h.kept ⟨rfl, rfl, Iff.rfl, fun hd => hd⟩
  | turn n =>
    refine h.kept ?_
    show env.Kept (env.turn n)
    rw [turn_eq_stir]
    exact env.kept_stir _
  | supply content =>
    refine h.kept ?_
    show env.Kept (env.supply content)
    obtain ⟨transport, hs, hnone, -⟩ := env.supply_frame content
    rw [hs]
    exact ⟨rfl, rfl, hnone, fun hd => hd⟩

/-- Every environment that a loader can come to be has the means of its host. -/
theorem Reachable.equipped (h : env.Reachable) : env.Equipped := by
  induction h with
  | made hmake =>
    obtain ⟨hfresh, -, -⟩ := fresh_of_make hmake
    refine ⟨hfresh.retrieving, fun hb => ?_⟩
    rw [hfresh.documentWrite]
    unfold Environment.profile at hb ⊢
    rw [Host.documentWrite_of_behavior _ hb]
    rfl
  | withSpecs _ specs ih =>
    exact ⟨fun hb => ⟨hb, (ih.retrieving hb).transport, (ih.retrieving hb).held⟩, ih.released⟩
  | takeOutput _ ih => exact ih.kept ⟨rfl, rfl, Iff.rfl, fun hd => hd⟩
  | perform _ action ih => exact ih.next action

/-! ## Refusals are found out first -/

/-- Loading is carried out where it is not refused from the start. -/
theorem Equipped.carriesOut_loadWith (h : env.Equipped) {caller : Caller} {atOnce : Bool}
    (hn : env.loadRefusal? caller atOnce = none) (paths : List String)
    (he : (env.loadWith caller paths atOnce).1 = .error e) : e.isRefusal = false := by
  unfold loadRefusal? at hn
  unfold loadWith at he
  cases hb : env.profile.behavior with
  | unsupported =>
    rw [hb] at hn
    cases hn
  | markOnly | alwaysLoaded =>
    rw [hb] at he
    cases he
  | retrieve =>
    have htransport := (h.retrieving hb).transport
    simp only [hb, ite_eq_right_iff, reduceCtorEq, imp_false, Bool.and_eq_true, Bool.not_eq_true',
      Bool.or_eq_true, not_and, not_or] at hn
    rw [hb] at he
    simp only at he
    split at he
    · -- Loading at once lets go what is held back before it registers anything.
      rename_i hheld
      have hc : env.canStart caller = true := by
        by_contra hc
        rw [Bool.not_eq_true] at hc
        rw [Bool.and_eq_true] at hheld
        exact (hn hc).1 hheld.1
      have hall : CarriesOut env
          (ModuleLoader.andThen (env.documentReady caller) (·.retrieveAll caller paths)) := by
        refine (CarriesOut.documentReady htransport fun _ => hc).andThen fun env' hkind hnone => ?_
        refine CarriesOut.retrieveAll (fun ht => htransport (hnone.1 ht)) (fun _ => ?_) paths
        rw [← hc, canStart, canStart, hkind]
      exact hall.error e he
    · refine (CarriesOut.retrieveAll htransport (fun hd => ?_) paths).error e he
      by_contra hc
      rw [Bool.not_eq_true] at hc
      exact (hn hc).2 hd

/-- An action that is not refused at once is not refused later. -/
theorem Equipped.carriesOut (h : env.Equipped) {action : Action} (hn : env.refusal? action = none)
    (he : (env.perform action).1 = .error e) : e.isRefusal = false := by
  have hunreported : ∀ {outcome : Except LoaderError Unit × Environment},
      (unreported outcome).1 = .error e → outcome.1 = .error e := by
    rintro ⟨e' | u, env'⟩ hu
    · cases hu
      rfl
    · cases hu
  cases action with
  | load caller paths => exact h.carriesOut_loadWith hn paths (hunreported he)
  | loadWith caller paths atOnce => exact h.carriesOut_loadWith hn paths (hunreported he)
  | documentReady caller =>
    simp only [refusal?, ite_eq_right_iff, reduceCtorEq, imp_false, Bool.and_eq_true,
      Bool.not_eq_true', not_and, Bool.not_eq_false] at hn
    by_cases hb : env.profile.behavior = .retrieve
    · exact (CarriesOut.documentReady (h.retrieving hb).transport hn).error e (hunreported he)
    · have hnothing : env.documentReady caller = (.ok (), env) := by
        simp [documentReady, h.released hb]
      have herror := hunreported he
      rw [hnothing] at herror
      cases herror
  | evalLoad path hasSourceMap code =>
    have herror := hunreported he
    simp only [refusal?, ite_eq_left_iff, Bool.not_eq_true, reduceCtorEq, imp_false,
      Bool.not_eq_false] at hn
    obtain ⟨journal, heval⟩ := evalLoad_eq hn path hasSourceMap code
    rw [heval] at herror
    cases hout : env.outcomeOf path hasSourceMap code with
    | ok u =>
      rw [hout] at herror
      exact (CarriesOut.flush _).error e herror
    | error failure =>
      rw [hout] at herror
      simp only at herror
      split at herror
      · cases herror
      · cases herror
        rfl
  | settle =>
    refine (CarriesOut.settling env).error e ?_
    rcases hs : env.settling with ⟨e' | u, env'⟩
    · rw [perform, settle_of_error hs] at he
      cases he
      rfl
    · rw [perform, settle_of_ok hs] at he
      cases he
  | setLoaded | turn | rouse | supply => cases he

/-- An action answers with a refusal just when it is refused from the start. -/
theorem Equipped.refusal?_eq_some_iff (h : env.Equipped) (action : Action) (e : LoaderError) :
    env.refusal? action = some e ↔ (env.perform action).1 = .error e ∧ e.isRefusal = true := by
  constructor
  · intro hr
    rw [perform_refused hr]
    exact ⟨rfl, isRefusal_of_refusal? hr⟩
  · rintro ⟨he, hr⟩
    cases hn : env.refusal? action with
    | none =>
      rw [h.carriesOut hn he] at hr
      cases hr
    | some e' =>
      rw [perform_refused hn] at he
      cases he
      rfl

/-- A call that wants an event loop is not refused inside one. -/
theorem refusal?_inside {action : Action} (h : env.refusal? action = some .noEventLoop) :
    env.refusal? action.inside = none := by
  have hload : ∀ {caller : Caller} {atOnce : Bool},
      env.loadRefusal? caller atOnce = some .noEventLoop →
      env.loadRefusal? .insideEventLoop atOnce = none := by
    intro caller atOnce hl
    unfold loadRefusal? at hl ⊢
    rw [canStart_insideEventLoop]
    cases hb : env.profile.behavior with
    | unsupported =>
      rw [hb] at hl
      cases hl
    | markOnly | alwaysLoaded | retrieve => rfl
  cases action with
  | load | loadWith => exact hload h
  | documentReady => simp [Action.inside, refusal?, canStart_insideEventLoop]
  | evalLoad =>
    simp only [refusal?, Option.ite_none_left_eq_some] at h
    cases h.2
  | setLoaded | settle | turn | rouse | supply => cases h

/-- A call that is refused leaves the environment as it was: all that is done later is answered as
if the call had not been made, and leads to the same environment.  A call that wants an event loop is
carried out when it is repeated inside one.  It makes no difference whether every start of a retrieval
asks for the event loop again, so no call is refused only after something was registered. -/
theorem Reachable.run_refused (h : env.Reachable) {action : Action}
    (he : (env.perform action).1 = .error e) (hr : e.isRefusal = true) :
    (env.perform action).2 = env ∧
      (∀ later, env.run (action :: later) = (.error e :: (env.run later).1, (env.run later).2)) ∧
      (e = .noEventLoop →
        ∀ e', (env.perform action.inside).1 = .error e' → e'.isRefusal = false) ∧
      env.performAsking action = env.perform action := by
  have hrefusal := (h.equipped.refusal?_eq_some_iff action e).2 ⟨he, hr⟩
  have hperform := perform_refused hrefusal
  refine ⟨by rw [hperform], fun later => ?_, ?_, env.record_outcome action⟩
  · rw [run_cons, hperform]
  · rintro rfl e' he'
    exact h.equipped.carriesOut (refusal?_inside hrefusal) he'

/-- A browser holds a module back.  From outside an event loop it cannot be let go, neither when the
document becomes ready nor by loading another one at once, and both can be done inside one. -/
theorem Reachable.run_refused_held :
    let config := { Configuration.default with host := .browser, aliases := [] }
    let bundle := Bundle.empty.add [("a.js", ""), ("b.js", "")] [] []
    let specs := [ModuleSpec.mk "a" "a.js" false, ⟨"b", "b.js", false⟩]
    let ready := Action.documentReady .outsideEventLoop
    let both := Action.loadWith .outsideEventLoop ["b"] true
    ∃ made, make config (.concurrent (.bundle bundle)) = .ok made ∧
      let env := ((made.withSpecs specs).run [.load .outsideEventLoop ["a"]]).2
      env.pendingWrites = [⟨"a", "a.js", false⟩] ∧
        (env.perform ready).1 = .error .noEventLoop ∧ (env.perform both).1 = .error .noEventLoop ∧
        env.run [ready, both, both.inside] =
          ([.error .noEventLoop, .error .noEventLoop, (env.perform both.inside).1],
            (env.perform both.inside).2) ∧
        (env.perform both.inside).2.order.order = ["a", "b"] := by
  intro config bundle specs ready both
  obtain ⟨made, hmade, hheld, hready, hboth, horder⟩ : ∃ made,
      make config (.concurrent (.bundle bundle)) = .ok made ∧
      ((made.withSpecs specs).run [.load .outsideEventLoop ["a"]]).2.pendingWrites =
        [⟨"a", "a.js", false⟩] ∧
      (((made.withSpecs specs).run [.load .outsideEventLoop ["a"]]).2.perform ready).1 =
        .error .noEventLoop ∧
      (((made.withSpecs specs).run [.load .outsideEventLoop ["a"]]).2.perform both).1 =
        .error .noEventLoop ∧
      (((made.withSpecs specs).run [.load .outsideEventLoop ["a"]]).2.perform
        both.inside).2.order.order = ["a", "b"] :=
    ⟨_, rfl, by decide +kernel +revert⟩
  have hreachable : Reachable ((made.withSpecs specs).run [.load .outsideEventLoop ["a"]]).2 :=
    ((Reachable.made hmade).withSpecs specs).perform (.load .outsideEventLoop ["a"])
  refine ⟨made, hmade, hheld, hready, hboth, ?_, horder⟩
  rw [(hreachable.run_refused hready rfl).2.1, (hreachable.run_refused hboth rfl).2.1]
  rfl

end Environment

end ModuleLoader
