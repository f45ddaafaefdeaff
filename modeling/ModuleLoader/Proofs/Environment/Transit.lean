import ModuleLoader.Proofs.Environment.Session

/-!
# Modules in transit

From its registration until its retrieval has come to something, a module is in transit: in hand,
held back, under way, or arrived and not taken account of.  Steps move modules along or take them
out of transit.  Main statements: `Step.effect`, every step does one of four things to what is due,
and `Step.accounted`, every requested module is in transit, just once.
-/

set_option autoImplicit false

namespace ModuleLoader

/-! ## What is due -/

/-- What a module's retrieval will come to. -/
def ModuleSpec.arrival (content : String → Except RetrievalFailure String) (spec : ModuleSpec) :
    Arrival := ⟨spec.id, content spec.location⟩

/-- Retrievals go to places with the given content. -/
def Transport.Serves (t : Transport) (content : String → Except RetrievalFailure String) : Prop :=
  ∀ medium, t = .concurrent medium ∨ t = .serial medium → medium.content = content

/-- Every transport has some content. -/
theorem Transport.exists_serves (t : Transport) : ∃ content, t.Serves content := by
  cases t with
  | concurrent medium =>
    refine ⟨medium.content, fun m hm => ?_⟩
    rcases hm with hm | hm <;> cases hm
    rfl
  | serial medium =>
    refine ⟨medium.content, fun m hm => ?_⟩
    rcases hm with hm | hm <;> cases hm
    rfl
  | none =>
    refine ⟨fun location => .ok location, fun m hm => ?_⟩
    rcases hm with hm | hm <;> cases hm

namespace Moment

open Environment

variable {content : String → Except RetrievalFailure String}

/-- Everything that will be taken account of, with what it will come to. -/
def due (content : String → Except RetrievalFailure String) (m : Moment) : List Arrival :=
  (m.hand ++ m.env.pendingWrites).map (ModuleSpec.arrival content) ++ m.env.schedule.due content

/-- The modules in transit. -/
def transit (m : Moment) : List String :=
  (m.hand ++ m.env.pendingWrites).map (·.id) ++ m.env.schedule.arrived.map (·.id) ++
    m.env.schedule.outstanding.map (·.id)

/-- Everything that is due is of the modules in transit. -/
theorem map_id_due (content : String → Except RetrievalFailure String) (m : Moment) :
    (m.due content).map (·.id) = m.transit := by
  simp [due, transit, Schedule.due, ModuleSpec.arrival, Retrieval.arrival, Function.comp_def]

/-- All modules evaluated so far, in order. -/
def evaluated (m : Moment) : List String :=
  m.log.reports.flatMap (·.evaluated) ++ m.env.progress.evaluated

/-- All modules that have failed so far. -/
def failed (m : Moment) : List String :=
  m.log.reports.flatMap (·.failed) ++ m.env.progress.failed

/-- Two moments between which nothing was registered, completed or evaluated. -/
structure Unmoved (m m' : Moment) : Prop where
  store : m'.env.store = m.env.store
  order : m'.env.order = m.env.order
  layer : m'.env.layer = m.env.layer
  evaluated : m'.evaluated = m.evaluated
  failed : m'.failed = m.failed
  asked : m'.log.asked = m.log.asked
  kept : m.env.Kept m'.env

/-- What a step does, as far as modules in transit are concerned. -/
inductive Effect (content : String → Except RetrievalFailure String) (m m' : Moment) : Prop where
  | moved (unmoved : Unmoved m m') (due : (m'.due content).Perm (m.due content))
  | registered (path : String) (new : m.env.store.get? (m.env.specFor path).id = none)
      (env : m'.env = { m.env with
        store := (m.env.store.ensure (m.env.specFor path)).2
        order := m.env.order.enqueue (m.env.specFor path).id })
      (log : m'.log = m.log.asking [path])
      (due : (m'.due content).Perm ((m.env.specFor path).arrival content :: m.due content))
  | skipped (path : String) (known : m.env.store.get? (m.env.specFor path).id ≠ none)
      (moment : m' = ⟨m.env, m.hand, m.log.asking [path]⟩)
  | completed (arrival : Arrival) (mid : Moment) (unmoved : Unmoved m mid)
      (due : (m.due content).Perm (arrival :: mid.due content))
      (moment : m' = ⟨(mid.env.complete arrival.id arrival.result).2, mid.hand, mid.log⟩)

/-- Taking account of a retrieval changes nothing of what is due. -/
theorem due_complete (env : Environment) (id : String) (result : Except RetrievalFailure String)
    (hand : List ModuleSpec) (log : Log) :
    due content ⟨(env.complete id result).2, hand, log⟩ = due content ⟨env, hand, log⟩ := by
  obtain ⟨store, order, layer, journal, progress, h⟩ := env.complete_frame id result
  rw [h]
  rfl

/-- Moving on what is under way changes nothing of what is due. -/
theorem effect_stir (env : Environment) (hand : List ModuleSpec) (log : Log)
    (hc : env.transport.Serves content) {move : Schedule → Medium → Schedule × Medium}
    (hmove : ∀ medium, Schedule.Delivers [] env.schedule medium (move env.schedule medium)) :
    (env.stir move).transport.Serves content ∧
      Effect content ⟨env, hand, log⟩ ⟨env.stir move, hand, log⟩ := by
  have hk := env.kept_stir move
  rcases env.stir_cases move with ⟨medium, ht⟩ | hnone
  · have hm : medium.content = content := hc medium (.inl ht)
    have hdue := (hmove medium).due
    have hcontent := (hmove medium).content_eq
    rw [hm] at hdue hcontent
    rw [stir_of_concurrent ht] at hk ⊢
    refine ⟨?_, .moved ⟨rfl, rfl, rfl, rfl, rfl, rfl, hk⟩ (hdue.append_left _)⟩
    rintro m (hs | hs)
    · cases hs
      exact hcontent
    · cases hs
  · rw [hnone]
    exact ⟨hc, .moved ⟨rfl, rfl, rfl, rfl, rfl, rfl, .refl env⟩ (.refl _)⟩

/-- A step keeps the content of the places and has one of the effects listed. -/
theorem Step.effect {m m' : Moment} (h : Step m m') (hc : m.env.transport.Serves content) :
    m'.env.transport.Serves content ∧ Effect content m m' := by
  cases h with
  | announce env hand log level text =>
    exact ⟨hc, .moved ⟨rfl, rfl, rfl, rfl, rfl, rfl, rfl, rfl, Iff.rfl, id⟩ (.refl _)⟩
  | register env hand log path new =>
    refine ⟨hc, .registered path new rfl rfl ?_⟩
    classical
    rw [List.perm_iff_count]
    intro a
    simp only [due, List.map_append, List.count_append, List.map_cons, List.map_nil,
      List.count_cons, List.count_nil]
    omega
  | skip env hand log path known => exact ⟨hc, .skipped path known rfl⟩
  | hold env hand log spec held =>
    refine ⟨hc, .moved ⟨rfl, rfl, rfl, rfl, rfl, rfl, rfl, rfl, Iff.rfl, id⟩ ?_⟩
    classical
    rw [List.perm_iff_count]
    intro a
    simp only [due, List.map_append, List.count_append, List.map_cons, List.map_nil,
      List.count_cons, List.count_nil, List.cons_append]
    omega
  | release env hand log =>
    refine ⟨hc, .moved ⟨rfl, rfl, rfl, rfl, rfl, rfl, rfl, rfl, Iff.rfl, fun hd => by cases hd⟩ ?_⟩
    classical
    rw [List.perm_iff_count]
    intro a
    simp only [due, List.map_append, List.count_append, List.map_nil, List.count_nil]
    omega
  | spawn env hand log spec medium concurrent =>
    refine ⟨hc, .moved ⟨rfl, rfl, rfl, rfl, rfl, rfl, rfl, rfl, Iff.rfl, id⟩ ?_⟩
    have hspawn := env.schedule.due_spawn content ⟨spec.id, spec.location⟩
    classical
    rw [List.perm_iff_count] at hspawn ⊢
    intro a
    have ha := hspawn a
    have hsame : Retrieval.arrival content ⟨spec.id, spec.location⟩ = spec.arrival content := rfl
    rw [hsame] at ha
    simp only [due, List.map_append, List.count_append, List.map_cons, List.cons_append,
      List.count_cons] at ha ⊢
    omega
  | fetch env hand log spec medium serial =>
    have hm : medium.content = content := hc medium (.inr serial)
    have hserves : (Transport.serial (medium.lookUp spec.location).2).Serves content := by
      rintro m (hs | hs)
      · cases hs
      · cases hs
        rw [Medium.content_lookUp, hm]
    refine ⟨?_, .completed (spec.arrival content)
      ⟨{ env with transport := .serial (medium.lookUp spec.location).2 }, hand, log⟩
      ⟨rfl, rfl, rfl, rfl, rfl, rfl, rfl, rfl, by simp [serial], id⟩ (.refl _) (by rw [hm]; rfl)⟩
    show Transport.Serves (complete _ _ _).2.transport content
    rw [transport_complete]
    exact hserves
  | receive env hand log arrival rest arrived =>
    refine ⟨?_, .completed arrival ⟨{ env with
      schedule := { env.schedule with arrived := rest }
      inFlight := env.inFlight - 1 }, hand, log⟩ ⟨rfl, rfl, rfl, rfl, rfl, rfl, rfl, rfl, Iff.rfl, id⟩
      ?_ rfl⟩
    · show Transport.Serves (complete _ _ _).2.transport content
      rw [transport_complete]
      exact hc
    · classical
      rw [List.perm_iff_count]
      intro a
      have hout : { env.schedule with arrived := rest }.outstanding = env.schedule.outstanding := rfl
      simp only [due, Schedule.due, arrived, hout, List.count_append, List.count_cons]
      omega
  | await env hand log =>
    rw [await_eq_stir]
    exact effect_stir env hand log hc env.schedule.delivers_await
  | turn env hand log n =>
    rw [turn_eq_stir]
    exact effect_stir env hand log hc fun medium => env.schedule.delivers_turn medium n
  | rouse env hand log n =>
    refine ⟨hc, .moved ⟨rfl, rfl, rfl, rfl, rfl, rfl, rfl, rfl, Iff.rfl, id⟩ ?_⟩
    exact (env.schedule.due_rouse content n).append_left _
  | report env hand log =>
    have hk := env.kept_report
    obtain ⟨journal, hr⟩ := env.report_frame
    rw [hr] at hk ⊢
    refine ⟨hc, .moved ⟨rfl, rfl, rfl, ?_, ?_, rfl, hk⟩ (.refl _)⟩
    · simp [evaluated, reportNow, Log.reporting]
    · simp [failed, reportNow, Log.reporting]

end Moment

/-! ## Retrievals under way -/

/-- The retrievals under way are counted, and hold or queue for permits; only where they run beside
the caller are there any, and only until the document is ready are modules held back. -/
structure Environment.Flight (env : Environment) : Prop where
  permits : env.schedule.Sound env.config.maxConcurrency
  inFlight : env.inFlight = env.schedule.arrived.length + env.schedule.outstanding.length
  alone : (∀ medium, env.transport ≠ .concurrent medium) → env.inFlight = 0
  held : env.documentWrite = false → env.pendingWrites = []

namespace Environment

/-- The retrievals under way stay counted when account is taken of one. -/
theorem Flight.complete {env : Environment} (h : env.Flight) (id : String)
    (result : Except RetrievalFailure String) : (env.complete id result).2.Flight := by
  obtain ⟨store, order, layer, journal, progress, he⟩ := env.complete_frame id result
  rw [he]
  exact ⟨h.permits, h.inFlight, h.alone, h.held⟩

/-- They stay counted when a sound move loses none. -/
theorem Flight.stir {env : Environment} (h : env.Flight)
    {move : Schedule → Medium → Schedule × Medium}
    (hsound : ∀ medium, (move env.schedule medium).1.Sound env.config.maxConcurrency)
    (hmove : ∀ medium, Schedule.Delivers [] env.schedule medium (move env.schedule medium)) :
    (env.stir move).Flight := by
  rcases env.stir_cases move with ⟨medium, ht⟩ | hnone
  · rw [stir_of_concurrent ht]
    have hlength := (hmove medium).due.length_eq
    simp only [Schedule.due, List.map_nil, List.nil_append, List.length_append,
      List.length_map] at hlength
    exact ⟨hsound medium, h.inFlight.trans hlength.symm, fun hn => absurd rfl (hn _), h.held⟩
  · rw [hnone]
    exact h

/-- They stay counted while they are waited for. -/
theorem Flight.await {env : Environment} (h : env.Flight) : env.await.Flight := by
  rw [await_eq_stir]
  exact h.stir h.permits.await env.schedule.delivers_await

/-- They stay counted when one has a turn. -/
theorem Flight.turn {env : Environment} (h : env.Flight) (n : Nat) : (env.turn n).Flight := by
  rw [turn_eq_stir]
  exact h.stir (fun medium => h.permits.turn medium n)
    fun medium => env.schedule.delivers_turn medium n

/-- They stay counted when one is roused. -/
theorem Flight.rouse {env : Environment} (h : env.Flight) (n : Nat) :
    { env with schedule := env.schedule.rouse n }.Flight := by
  refine ⟨h.permits.rouse n, h.inFlight.trans ?_, h.alone, h.held⟩
  simp only [env.schedule.arrived_rouse, (env.schedule.outstanding_rouse n).length_eq]

/-- They stay counted when what code is retrieved from is exchanged. -/
theorem Flight.supply {env : Environment} (h : env.Flight) (content : Medium) :
    (env.supply content).Flight := by
  obtain ⟨transport, hs, -, hconcurrent⟩ := env.supply_frame content
  rw [hs]
  exact ⟨h.permits, h.inFlight, fun hn => h.alone (hconcurrent hn), h.held⟩

end Environment

namespace Moment

/-- They stay counted in every step. -/
theorem Step.flight {m m' : Moment} (h : Step m m') (hf : m.env.Flight) : m'.env.Flight := by
  cases h with
  | announce env hand log level text => exact ⟨hf.permits, hf.inFlight, hf.alone, hf.held⟩
  | register env hand log path new => exact ⟨hf.permits, hf.inFlight, hf.alone, hf.held⟩
  | skip env hand log path known => exact hf
  | hold env hand log spec held =>
    refine ⟨hf.permits, hf.inFlight, hf.alone, fun hd => ?_⟩
    rw [held] at hd
    cases hd
  | release env hand log => exact ⟨hf.permits, hf.inFlight, hf.alone, fun _ => rfl⟩
  | spawn env hand log spec medium concurrent =>
    refine ⟨hf.permits.spawn _, ?_, fun hn => absurd concurrent (hn medium), hf.held⟩
    have hcount := hf.inFlight
    simp only [Schedule.spawn, Schedule.outstanding, List.length_append, List.length_map,
      List.length_cons, List.length_nil] at hcount ⊢
    omega
  | fetch env hand log spec medium serial =>
    have hlook : { env with transport := .serial (medium.lookUp spec.location).2 }.Flight :=
      ⟨hf.permits, hf.inFlight, fun _ => hf.alone (by simp [serial]), hf.held⟩
    exact hlook.complete _ _
  | receive env hand log arrival rest arrived =>
    change env.Flight at hf
    have hcount := hf.inFlight
    simp only [arrived, List.length_cons] at hcount
    have hzero : (∀ medium, env.transport ≠ .concurrent medium) → env.inFlight - 1 = 0 := by
      intro hn
      have halone := hf.alone hn
      omega
    have htaken : env.inFlight - 1 = rest.length + env.schedule.outstanding.length := by omega
    have htake : { env with
        schedule := { env.schedule with arrived := rest }
        inFlight := env.inFlight - 1 }.Flight :=
      ⟨⟨hf.permits.permits_add_held, hf.permits.saturated⟩, htaken, hzero, hf.held⟩
    exact htake.complete _ _
  | await env hand log => exact hf.await
  | turn env hand log n => exact hf.turn n
  | rouse env hand log n => exact hf.rouse n
  | report env hand log =>
    obtain ⟨journal, hr⟩ := env.report_frame
    rw [hr]
    exact ⟨hf.permits, hf.inFlight, hf.alone, hf.held⟩

/-- So they do in any number of steps. -/
theorem Steps.flight {m m' : Moment} (h : Steps m m') (hf : m.env.Flight) : m'.env.Flight := by
  induction h with
  | refl => exact hf
  | tail _ hstep ih => exact hstep.flight ih

/-! ## Every requested module is in transit -/

/-- Every module in transit is known and there once, and every requested module is in transit. -/
structure Accounted (m : Moment) : Prop where
  once : m.transit.Nodup
  known : ∀ id ∈ m.transit, m.env.store.get? id ≠ none
  requested : ∀ id, m.env.store.Requested id → id ∈ m.transit

/-- The modules in transit stay accounted for in every step. -/
theorem Step.accounted {m m' : Moment} (h : Step m m') (ha : m.Accounted) : m'.Accounted := by
  obtain ⟨content, hc⟩ := m.env.transport.exists_serves
  cases (h.effect hc).2 with
  | moved unmoved due =>
    have hperm := due.map (·.id)
    rw [map_id_due, map_id_due] at hperm
    refine ⟨hperm.nodup_iff.2 ha.once, ?_, ?_⟩
    · intro id hid
      rw [unmoved.store]
      exact ha.known id (hperm.mem_iff.1 hid)
    · intro id hid
      rw [unmoved.store] at hid
      exact hperm.mem_iff.2 (ha.requested id hid)
  | registered path new env log due =>
    have hperm := due.map (·.id)
    rw [List.map_cons, map_id_due, map_id_due] at hperm
    -- Everything in transit is known, so a module that is new is not there yet.
    have hnew : (m.env.specFor path).id ∉ m.transit := fun hid => ha.known _ hid new
    refine ⟨hperm.nodup_iff.2 (List.nodup_cons.2 ⟨hnew, ha.once⟩), ?_, ?_⟩
    · intro id hid hn
      simp only [env, ModuleStore.get?_ensure_eq_none] at hn
      rcases List.mem_cons.1 (hperm.mem_iff.1 hid) with he | hid
      · exact hn.2 he
      · exact ha.known id hid hn.1
    · intro id hid
      simp only [env] at hid
      refine hperm.mem_iff.2 (List.mem_cons.2 ?_)
      rcases ModuleStore.requested_of_ensure hid with hid | he
      · exact .inr (ha.requested id hid)
      · exact .inl he
  | skipped path known moment =>
    rw [moment]
    exact ⟨ha.once, ha.known, ha.requested⟩
  | completed arrival mid unmoved due moment =>
    have hperm := due.map (·.id)
    rw [List.map_cons, map_id_due, map_id_due] at hperm
    obtain ⟨hnot, honce⟩ := List.nodup_cons.1 (hperm.nodup_iff.1 ha.once)
    -- The arrival leaves transit, and its record is requested no more; no other record changes so.
    have hsame : m'.transit = mid.transit := by
      rw [← map_id_due content, ← map_id_due content, moment]
      exact congrArg _ (due_complete mid.env arrival.id arrival.result mid.hand mid.log)
    have hstore : m'.env.store.Follows
        (m.env.store.advance arrival.id (.ofRetrieval arrival.result)).2 := by
      rw [moment, ← unmoved.store]
      exact mid.env.follows_complete arrival.id arrival.result
    rw [← hsame] at honce
    refine ⟨honce, ?_, ?_⟩
    · intro id hid hn
      rw [hstore.get?_eq_none, ModuleStore.get?_advance_eq_none] at hn
      rw [hsame] at hid
      exact ha.known id (hperm.mem_iff.2 (List.mem_cons_of_mem _ hid)) hn
    · intro id hid
      rw [hstore.requested] at hid
      obtain ⟨hreq, hne⟩ := ModuleStore.requested_of_advance
        (by cases arrival.result <;> simp [ModuleState.ofRetrieval]) hid
      rw [hsame]
      exact (List.mem_cons.1 (hperm.mem_iff.1 (ha.requested id hreq))).resolve_left hne

/-- So they do in any number of steps. -/
theorem Steps.accounted {m m' : Moment} (h : Steps m m') (ha : m.Accounted) : m'.Accounted := by
  induction h with
  | refl => exact ha
  | tail _ hstep ih => exact hstep.accounted ih

variable {env : Environment} {hand : List ModuleSpec} {log : Log}

/-- Changes other than of the records do not matter, nor does what has been logged. -/
theorem Accounted.of_eq {env' : Environment} (h : Accounted ⟨env, hand, log⟩) (log' : Log)
    (hs : env'.store = env.store) (hp : env'.pendingWrites = env.pendingWrites)
    (hsched : env'.schedule = env.schedule) : Accounted ⟨env', hand, log'⟩ := by
  have htransit : transit ⟨env', hand, log'⟩ = transit ⟨env, hand, log⟩ := by
    simp only [transit, hp, hsched]
  refine ⟨?_, ?_, ?_⟩
  · rw [htransit]
    exact h.once
  · simp only [htransit, hs]
    exact h.known
  · simp only [htransit, hs]
    exact h.requested

/-- They stay accounted for when an outcome is forced on a module. -/
theorem Accounted.force (h : Accounted ⟨env, hand, log⟩) (id : String)
    (result : Except EvaluationFailure Unit) :
    Accounted ⟨{ env with store := env.store.force id (.ofOutcome result) }, hand, log⟩ where
  once := h.once
  known other hother := ModuleStore.get?_ne_none_of_force (h.known other hother) id _
  requested other hother := h.requested other (ModuleStore.requested_of_force hother)

/-- They stay accounted for over a flush. -/
theorem Accounted.flush (h : Accounted ⟨env, hand, log⟩) : Accounted ⟨env.flush.2, hand, log⟩ := by
  have hfollows := env.follows_flush
  obtain ⟨journal, progress, hflush⟩ := env.flush_frame
  rw [hflush] at hfollows ⊢
  refine ⟨h.once, ?_, ?_⟩
  · intro id hid hn
    exact h.known id hid (hfollows.get?_eq_none.1 hn)
  · intro id hid
    exact h.requested id (hfollows.requested.1 hid)

/-- They stay accounted for when what code is retrieved from is exchanged. -/
theorem Accounted.supply (h : Accounted ⟨env, hand, log⟩) (content : Medium) :
    Accounted ⟨env.supply content, hand, log⟩ := by
  obtain ⟨transport, hs, -⟩ := env.supply_frame content
  rw [hs]
  exact h.of_eq log rfl rfl rfl

end Moment

namespace Environment

/-! ## The end of settling -/

/-- What a wait for all retrievals leaves behind, unless one fails: nothing under way. -/
theorem settleAll_ends {env env' : Environment} (hf : env.Flight)
    (hpos : 0 < env.config.maxConcurrency) (h : env.settleAll = (.ok (), env')) :
    env'.schedule.arrived = [] ∧ env'.schedule.outstanding = [] := by
  fun_induction settleAll env with
  | case1 env hzero =>
    cases h
    have hcount := hf.inFlight
    exact ⟨List.eq_nil_of_length_eq_zero (by omega), List.eq_nil_of_length_eq_zero (by omega)⟩
  | case2 env hne harr =>
    cases h
    by_cases hc : ∃ medium, env.transport = .concurrent medium
    · -- Nothing arrived although something was under way; then no task is left that could run.
      obtain ⟨medium, ht⟩ := hc
      have hnone := Schedule.outstanding_await hf.permits hpos medium
      rw [await_eq_stir, stir_of_concurrent ht] at harr ⊢
      exact ⟨harr, hnone harr⟩
    · exact absurd (hf.alone fun medium ht => hc ⟨medium, ht⟩) hne
  | case3 env hne arrival rest harr e env'' hr => cases h
  | case4 env hne arrival rest harr env'' hr ih =>
    have hk := (receive_leads .insideEventLoop env.await [] harr).kept
    have hfr := (Moment.Step.receive env.await [] .empty arrival rest harr).flight hf.await
    rw [hr] at hk
    simp only [hr] at hfr
    refine ih hfr ?_ h
    have hawait : env.Kept env.await := (Moment.Step.await env [] .empty).kept
    rw [hk.config, hawait.config]
    exact hpos

/-- After settling that does not fail nothing is under way. -/
theorem settling_ends {env env' : Environment} (hf : env.Flight)
    (hpos : 0 < env.config.maxConcurrency) (h : env.settling = (.ok (), env')) :
    env'.schedule.arrived = [] ∧ env'.schedule.outstanding = [] := by
  have hdrain := drain_leads .insideEventLoop env []
  unfold settling andThen at h
  rcases hd : env.drain with ⟨e | u, mid⟩
  · simp [hd] at h
  · rw [hd] at h hdrain
    have hk : env.Kept mid := hdrain.kept
    obtain ⟨asked, -, hsteps⟩ := hdrain.steps
    have hmid : mid.Flight := (hsteps .empty).flight hf
    refine settleAll_ends hmid ?_ h
    rw [hk.config]
    exact hpos

/-- Settling, where it goes on after failures, ends at a moment from which the report is taken and at
which nothing is under way. -/
theorem settle_cases {env : Environment} (hf : env.profile.policy = .failForward)
    (hflight : env.Flight) (hpos : 0 < env.config.maxConcurrency) :
    ∃ env', env.perform .settle = (.ok (some env'.reportNow), env'.report.2) ∧
      (∀ log, Moment.Steps ⟨env, [], log⟩ ⟨env', [], log⟩) ∧
      env'.schedule.arrived = [] ∧ env'.schedule.outstanding = [] := by
  have hl := settling_leads .insideEventLoop env
  obtain ⟨asked, hasked, hsteps⟩ := hl.steps
  have hok := hl.ok hf rfl
  rw [hasked hok] at hsteps
  rcases hs : env.settling with ⟨answer, env'⟩
  rw [hs] at hok hsteps
  simp only at hok
  rw [hok] at hs
  refine ⟨env', ?_, fun log => by simpa using hsteps log, settling_ends hflight hpos hs⟩
  rw [perform, settle_of_ok hs]
  rfl

/-- A run of loading actions that ends with settling is a sequence of steps to a moment at which
nothing is under way, and a report. -/
theorem run_settle_steps {env : Environment} (h : env.Retrieving)
    (hf : env.profile.policy = .failForward) (hflight : env.Flight)
    (hpos : 0 < env.config.maxConcurrency) {actions : List Action}
    (hall : ∀ a ∈ actions, a.isLoading = true ∧ a.caller = .insideEventLoop) :
    ∃ env' journal,
      env.run (actions ++ [.settle]) = ((env.run actions).1 ++ [.ok (some env'.reportNow)],
        { env' with journal, progress := ⟨[], []⟩ }) ∧
      (∀ answer ∈ (env.run actions).1, ∃ r, answer = .ok r) ∧
      Moment.Steps ⟨env, [], .empty⟩ ⟨env', [],
        (Log.empty.asking (actions.flatMap Action.paths)).reporting
          (reportsOf (env.run actions).1)⟩ ∧
      (env.run actions).2.Kept env' ∧
      env'.schedule.arrived = [] ∧ env'.schedule.outstanding = [] := by
  obtain ⟨hanswers, hsteps⟩ := run_steps h hf hall .empty
  have hk : env.Kept (env.run actions).2 := hsteps.kept
  have hforward : (env.run actions).2.profile.policy = .failForward := by
    rw [hk.profile]
    exact hf
  have hmost : 0 < (env.run actions).2.config.maxConcurrency := by
    rw [hk.config]
    exact hpos
  obtain ⟨env', hsettle, hlast, harrived, houtstanding⟩ :=
    settle_cases hforward (hsteps.flight hflight) hmost
  obtain ⟨journal, hresult⟩ := run_settle env actions hsettle
  exact ⟨env', journal, hresult, hanswers, hsteps.trans (hlast _), (hlast .empty).kept, harrived,
    houtstanding⟩

end Environment

end ModuleLoader
