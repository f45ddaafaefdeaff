import ModuleLoader.Proofs.Environment.Fixpoint

/-!
# The state of an environment

Whatever is done to an environment that retrieves modules, and however it ends, its load order, its
records and its retrievals under way fit together: modules before the cursor are settled, all that
are not settled stand after it, every requested module is held back or under way just once, and the
retrievals under way are counted.  All this holds not only between two actions but at every step of
one.  Main statement: `run_consistent`, which also says that no module stays requested for good.
-/

set_option autoImplicit false

namespace ModuleLoader

/-! ## Modules that are not settled -/

namespace ModuleStore

/-- The module is known and not settled: requested, retrieved, or impossible to retrieve. -/
def Unsettled (s : ModuleStore) (id : String) : Prop :=
  ∃ record, s.get? id = some record ∧ record.state.isSettled = false

/-- A module is not settled and unsettled at once. -/
theorem Settled.not_unsettled {s : ModuleStore} {id : String} (h : s.Settled id) :
    ¬ s.Unsettled id := by
  rintro ⟨record, hr, hu⟩
  obtain ⟨r, hg, hs⟩ := h
  rw [hr] at hg
  cases hg
  rw [hu] at hs
  cases hs

/-- Whether a module is unsettled depends on its record alone. -/
theorem Unsettled.congr {s t : ModuleStore} {id : String} (h : t.get? id = s.get? id) :
    t.Unsettled id ↔ s.Unsettled id := by
  unfold Unsettled
  rw [h]

/-- What is unsettled was so in every store that is followed. -/
theorem Follows.unsettled {t s : ModuleStore} (h : t.Follows s) {id : String}
    (hu : t.Unsettled id) : s.Unsettled id := by
  rcases h id with he | ⟨record, code, result, hr, ht⟩
  · exact (Unsettled.congr he).1 hu
  · have hs : t.Settled id := ⟨_, ht, ModuleState.isSettled_ofOutcome result⟩
    exact absurd hu hs.not_unsettled

/-- A regular move starts from a record that is not settled. -/
theorem unsettled_of_advance {s : ModuleStore} {id : String} {next : ModuleState} {other : String}
    (h : (s.advance id next).2.Unsettled other) : s.Unsettled other := by
  rcases s.advance_cases id next with ha | ⟨record, hr, hallows, ha⟩
  · rw [ha] at h
    exact h
  · by_cases he : other = id
    · refine ⟨record, by rw [he]; exact hr, ?_⟩
      rw [← Bool.not_eq_true]
      intro hs
      rw [ModuleState.allows_of_isSettled hs] at hallows
      cases hallows
    · exact (Unsettled.congr (s.get?_advance_of_ne next he)).1 h

/-- Forcing an outcome makes nothing unsettled. -/
theorem unsettled_of_force {s : ModuleStore} {id : String}
    {result : Except EvaluationFailure Unit} {other : String}
    (h : (s.force id (.ofOutcome result)).Unsettled other) : s.Unsettled other := by
  by_cases he : other = id
  · rw [he] at h
    exact absurd h (s.settled_force id result).not_unsettled
  · exact (Unsettled.congr (s.get?_force_of_ne _ he)).1 h

/-- Making a record makes at most its own module unsettled. -/
theorem unsettled_of_ensure {s : ModuleStore} {spec : ModuleSpec} {other : String}
    (h : (s.ensure spec).2.Unsettled other) : s.Unsettled other ∨ other = spec.id := by
  obtain ⟨record, hr, hu⟩ := h
  rw [get?_ensure] at hr
  split at hr
  · rename_i hc
    exact .inr hc.1
  · exact .inl ⟨record, hr, hu⟩

end ModuleStore

namespace Environment

/-! ## The load order -/

/-- Every module stands in the order once and is known, those before the cursor are settled, and all
modules that are not settled stand after it. -/
structure Ordered (env : Environment) : Prop where
  once : env.order.order.Nodup
  known : ∀ id ∈ env.order.order, env.store.get? id ≠ none
  cursor_le : env.order.cursor ≤ env.order.order.length
  passed : ∀ id ∈ env.order.order.take env.order.cursor, env.store.Settled id
  ahead : ∀ id, env.store.Unsettled id → id ∈ env.order.pending

/-- Records may change as long as none is lost and settled ones stay settled. -/
theorem Ordered.restore {env env' : Environment} (h : env.Ordered) (ho : env'.order = env.order)
    (known : ∀ id, env.store.get? id ≠ none → env'.store.get? id ≠ none)
    (settled : ∀ id, env.store.Settled id → env'.store.Settled id)
    (unsettled : ∀ id, env'.store.Unsettled id → env.store.Unsettled id) : env'.Ordered := by
  refine ⟨?_, ?_, ?_, ?_, ?_⟩
  · rw [ho]
    exact h.once
  · intro id hid
    rw [ho] at hid
    exact known id (h.known id hid)
  · rw [ho]
    exact h.cursor_le
  · intro id hid
    rw [ho] at hid
    exact settled id (h.passed id hid)
  · intro id hid
    rw [ho]
    exact h.ahead id (unsettled id hid)

/-- Whether an environment is ordered depends on its store and its order. -/
theorem Ordered.of_eq {env env' : Environment} (h : env.Ordered) (hs : env'.store = env.store)
    (ho : env'.order = env.order) : env'.Ordered := by
  apply h.restore ho
  · rw [hs]
    exact fun id hid => hid
  · rw [hs]
    exact fun id hid => hid
  · rw [hs]
    exact fun id hid => hid

/-- It stays ordered when a module advances. -/
theorem Ordered.advance {env env' : Environment} (h : env.Ordered) {id : String} {next : ModuleState}
    (hs : env'.store = (env.store.advance id next).2) (ho : env'.order = env.order) :
    env'.Ordered := by
  apply h.restore ho
  · intro other hother
    rw [hs, ne_eq, ModuleStore.get?_advance_eq_none]
    exact hother
  · intro other hother
    rw [hs]
    exact hother.advance id next
  · intro other hother
    rw [hs] at hother
    exact ModuleStore.unsettled_of_advance hother

/-- It stays ordered when an outcome is forced on a module. -/
theorem Ordered.force {env env' : Environment} (h : env.Ordered) {id : String}
    {result : Except EvaluationFailure Unit} (hs : env'.store = env.store.force id (.ofOutcome result))
    (ho : env'.order = env.order) : env'.Ordered := by
  apply h.restore ho
  · intro other hother
    rw [hs]
    exact ModuleStore.get?_ne_none_of_force hother id _
  · intro other hother
    rw [hs]
    exact hother.force id result
  · intro other hother
    rw [hs] at hother
    exact ModuleStore.unsettled_of_force hother

/-- A module that is registered comes last in the order. -/
theorem Ordered.register {env env' : Environment} (h : env.Ordered) {spec : ModuleSpec}
    (hnew : env.store.get? spec.id = none) (hs : env'.store = (env.store.ensure spec).2)
    (ho : env'.order = env.order.enqueue spec.id) : env'.Ordered := by
  have hpending : env'.order.pending = env.order.pending ++ [spec.id] := by
    rw [ho, LoadOrder.pending, LoadOrder.enqueue, List.drop_append_of_le_length h.cursor_le]
    rfl
  have hnot : spec.id ∉ env.order.order := fun hid => h.known spec.id hid hnew
  refine ⟨?_, ?_, ?_, ?_, ?_⟩
  · rw [ho, LoadOrder.enqueue, ← List.concat_eq_append]
    exact h.once.concat hnot
  · intro id hid hn
    rw [ho, LoadOrder.enqueue] at hid
    rw [hs, ModuleStore.get?_ensure_eq_none] at hn
    rcases List.mem_append.1 hid with hid | hid
    · exact h.known id hid hn.1
    · exact hn.2 (List.mem_singleton.1 hid)
  · rw [ho]
    simp only [LoadOrder.enqueue, List.length_append]
    exact Nat.le_add_right_of_le h.cursor_le
  · intro id hid
    rw [ho, LoadOrder.enqueue] at hid
    simp only [List.take_append_of_le_length h.cursor_le] at hid
    rw [hs]
    exact (h.passed id hid).ensure spec
  · intro id hid
    rw [hs] at hid
    rw [hpending]
    apply List.mem_append.2
    rcases ModuleStore.unsettled_of_ensure hid with hid | he
    · exact .inl (h.ahead id hid)
    · exact .inr (List.mem_singleton.2 he)

/-- A flush moves the cursor past settled modules only. -/
theorem Ordered.flush {env : Environment} (h : env.Ordered) : env.flush.2.Ordered := by
  obtain ⟨journal, progress, hflush⟩ := env.flush_frame
  obtain ⟨hlength, hfollows, hpassed⟩ : env.orderFlush.passed ≤ env.order.pending.length ∧
      env.orderFlush.store.Follows env.store ∧
        ∀ id ∈ env.order.pending.take env.orderFlush.passed, env.orderFlush.store.Settled id :=
    Flush.through_standing env.order.pending env.store env.layer
  have hcursor := h.cursor_le
  rw [hflush]
  refine ⟨h.once, ?_, ?_, ?_, ?_⟩
  · intro id hid hn
    exact h.known id hid (hfollows.get?_eq_none.1 hn)
  · rw [LoadOrder.pending, List.length_drop] at hlength
    show env.order.cursor + env.orderFlush.passed ≤ env.order.order.length
    omega
  · intro id hid
    simp only [List.take_add, List.mem_append] at hid
    rcases hid with hid | hid
    · exact hfollows.settled (h.passed id hid)
    · exact hpassed id hid
  · intro id hid
    have hbefore := h.ahead id (hfollows.unsettled hid)
    rw [← List.take_append_drop env.orderFlush.passed env.order.pending] at hbefore
    rcases List.mem_append.1 hbefore with hmem | hmem
    · exact absurd hid (hpassed id hmem).not_unsettled
    · rw [LoadOrder.pending, List.drop_drop] at hmem
      exact hmem

/-- It stays ordered when account is taken of a retrieval. -/
theorem Ordered.complete {env : Environment} (h : env.Ordered) (id : String)
    (result : Except RetrievalFailure String) : (env.complete id result).2.Ordered := by
  obtain ⟨journal, progress, hn⟩ := env.noteArrival_frame id result
  have hstore : (env.noteArrival id result).store =
      (env.store.advance id (.ofRetrieval result)).2 := by rw [hn]
  have hnoted : (env.noteArrival id result).Ordered := by
    apply h.advance hstore
    rw [hn]
  rcases env.complete_cases id result with hc | hc
  · rw [hc]
    exact hnoted.flush
  · rw [hc]
    exact hnoted

end Environment

namespace Moment

open Environment

/-- It stays ordered in every step. -/
theorem Step.ordered {m m' : Moment} (h : Step m m') (ho : m.env.Ordered) : m'.env.Ordered := by
  obtain ⟨content, hc⟩ := m.env.transport.exists_serves
  cases (h.effect hc).2 with
  | moved unmoved due => exact ho.of_eq unmoved.store unmoved.order
  | registered path new env log due =>
    apply ho.register new
    · rw [env]
    · rw [env]
  | skipped path known moment =>
    rw [moment]
    exact ho
  | completed arrival mid unmoved due moment =>
    rw [moment]
    exact (ho.of_eq unmoved.store unmoved.order).complete arrival.id arrival.result

/-- So it does in any number of steps. -/
theorem Steps.ordered {m m' : Moment} (h : Steps m m') (ho : m.env.Ordered) : m'.env.Ordered := by
  induction h with
  | refl => exact ho
  | tail _ hstep ih => exact hstep.ordered ih

/-! ## Moments -/

/-- The modules that are held back, or about to be held back or started. -/
def heldBack (m : Moment) : List String := (m.hand ++ m.env.pendingWrites).map (·.id)

/-- The modules whose retrieval was started and has not been taken account of. -/
def underWay (m : Moment) : List String :=
  m.env.schedule.arrived.map (·.id) ++ m.env.schedule.outstanding.map (·.id)

/-- The order, the records and the retrievals of a moment fit together. -/
structure Consistent (m : Moment) : Prop where
  once : m.env.order.order.Nodup
  known : ∀ id ∈ m.env.order.order, m.env.store.get? id ≠ none
  passed : ∀ id ∈ m.env.order.order.take m.env.order.cursor, m.env.store.Settled id
  ahead : ∀ id, m.env.store.Unsettled id → id ∈ m.env.order.order.drop m.env.order.cursor
  single : ∀ id, m.env.store.Requested id → m.heldBack.count id + m.underWay.count id = 1
  counted : m.env.inFlight = m.underWay.length
  /-- An arrival can be taken off the count whenever there is one. -/
  positive : m.env.schedule.arrived ≠ [] → 0 < m.env.inFlight

/-- A moment is consistent at which the environment is ordered, the retrievals under way are counted
and the modules in transit accounted for. -/
theorem consistent_of {m : Moment} (ho : m.env.Ordered) (hf : m.env.Flight) (ha : m.Accounted) :
    m.Consistent where
  once := ho.once
  known := ho.known
  passed := ho.passed
  ahead := ho.ahead
  single id hid := by
    have hmem := ha.requested id hid
    have hsplit : m.transit = m.heldBack ++ m.underWay := by
      simp only [transit, heldBack, underWay, List.append_assoc]
    have hcount := List.count_eq_one_of_mem ha.once hmem
    rw [hsplit, List.count_append] at hcount
    exact hcount
  counted := by
    rw [hf.inFlight]
    simp only [underWay, List.length_append, List.length_map]
  positive hne := by
    have hpos := List.length_pos_of_ne_nil hne
    have hcount := hf.inFlight
    omega

end Moment

namespace Environment

/-! ## Actions -/

/-- What holds between any two actions of an environment that retrieves modules. -/
structure Upright (env : Environment) : Prop where
  retrieving : env.Retrieving
  concurrency : 0 < env.config.maxConcurrency
  flight : env.Flight
  accounted : Moment.Accounted ⟨env, [], .empty⟩
  ordered : env.Ordered

variable {env env' : Environment}

/-- A new environment that retrieves modules is upright. -/
theorem Fresh.upright (h : env.Fresh) (hb : env.profile.behavior = .retrieve) : env.Upright := by
  refine ⟨h.retrieving hb, h.concurrency, h.flight, h.accounted .empty, ?_, ?_, ?_, ?_, ?_⟩
  · rw [h.order]
    exact .nil
  · rw [h.order]
    nofun
  · rw [h.order]
    exact Nat.le_refl _
  · rw [h.order]
    nofun
  · rintro id ⟨record, hr, -⟩
    rw [h.store] at hr
    cases hr

/-- Every moment that steps lead to from such an environment is consistent. -/
theorem Upright.moment (h : env.Upright) {log : Log} {m : Moment}
    (hs : Moment.Steps ⟨env, [], log⟩ m) : m.Consistent := by
  apply Moment.consistent_of (hs.ordered h.ordered) (hs.flight h.flight)
  exact hs.accounted (h.accounted.of_eq log rfl rfl rfl)

/-- An environment stays upright over steps that leave no module in hand. -/
theorem Upright.steps (h : env.Upright) {log : Log}
    (hs : Moment.Steps ⟨env, [], .empty⟩ ⟨env', [], log⟩) : env'.Upright := by
  have hk : env.Kept env' := hs.kept
  have haccounted := hs.accounted h.accounted
  refine ⟨h.retrieving.kept hk, ?_, hs.flight h.flight, ?_, hs.ordered h.ordered⟩
  · rw [hk.config]
    exact h.concurrency
  · exact haccounted.of_eq .empty rfl rfl rfl

/-- Settling a module by force leads from one such environment to another. -/
theorem Upright.force (h : env.Upright) (id : String) (result : Except EvaluationFailure Unit)
    (layer : Namespace.Layer) (journal : Journal) (progress : Progress) :
    { env with
      layer, journal, progress
      store := env.store.force id (.ofOutcome result) }.Upright where
  retrieving := ⟨h.retrieving.behavior, h.retrieving.transport, h.retrieving.held⟩
  concurrency := h.concurrency
  flight := ⟨h.flight.permits, h.flight.inFlight, h.flight.alone, h.flight.held⟩
  accounted := (h.accounted.force id result).of_eq .empty rfl rfl rfl
  ordered := @Ordered.force env _ h.ordered id result rfl rfl

/-- It stays upright over a flush. -/
theorem Upright.flush (h : env.Upright) : env.flush.2.Upright := by
  have hordered := h.ordered.flush
  have haccounted := h.accounted.flush
  obtain ⟨journal, progress, hflush⟩ := env.flush_frame
  rw [hflush] at hordered haccounted ⊢
  exact ⟨⟨h.retrieving.behavior, h.retrieving.transport, h.retrieving.held⟩, h.concurrency,
    ⟨h.flight.permits, h.flight.inFlight, h.flight.alone, h.flight.held⟩, haccounted, hordered⟩

/-- It stays upright when what code is retrieved from is exchanged. -/
theorem Upright.supply (h : env.Upright) (content : Medium) : (env.supply content).Upright := by
  have hretrieving := h.retrieving.supply content
  have hflight := h.flight.supply content
  have haccounted := h.accounted.supply content
  obtain ⟨transport, hs, -⟩ := env.supply_frame content
  rw [hs] at hretrieving hflight haccounted ⊢
  exact ⟨hretrieving, h.concurrency, hflight, haccounted, h.ordered.of_eq rfl rfl⟩

/-- Every action leads from one such environment to another, whether it fails or not. -/
theorem Upright.perform (h : env.Upright) (action : Action) : (env.perform action).2.Upright := by
  have hloading : action.isLoading = true → (env.perform action).2.Upright := by
    intro hl
    obtain ⟨asked, -, hsteps⟩ := (perform_steps h.retrieving hl).1
    exact h.steps (hsteps .empty)
  -- Loading actions are sequences of steps; the others change a record without one.
  cases action with
  | load | loadWith | documentReady | settle | turn | rouse => exact hloading rfl
  | setLoaded id => exact h.force id (.ok ()) env.layer env.journal env.progress
  | evalLoad path hasSourceMap code =>
    obtain ⟨journal, heval⟩ := evalLoad_eq h.retrieving.acceptsCode path hasSourceMap code
    show (env.evalLoad path hasSourceMap code).2.Upright
    rw [heval]
    cases env.outcomeOf path hasSourceMap code with
    | ok u => exact (h.force path (.ok ()) _ journal _).flush
    | error failure => exact h.force path (.error failure) _ journal _
  | supply content => exact h.supply content

/-- It stays upright over any actions. -/
theorem Upright.run (h : env.Upright) (actions : List Action) : (env.run actions).2.Upright := by
  induction actions generalizing env with
  | nil => exact h
  | cons action actions ih =>
    rw [run_cons]
    exact ih (h.perform action)

/-! ## No module stays requested -/

/-- An arrival that is taken is in flight no more. -/
theorem inFlight_receive (env : Environment) (arrival : Arrival) (rest : List Arrival) :
    (env.receive arrival rest).2.inFlight = env.inFlight - 1 := by
  unfold receive
  obtain ⟨store, order, layer, journal, progress, h⟩ := complete_frame { env with
    schedule := { env.schedule with arrived := rest }
    inFlight := env.inFlight - 1 } arrival.id arrival.result
  rw [h]

/-- Waiting leaves everything in flight. -/
theorem inFlight_await (env : Environment) : env.await.inFlight = env.inFlight := by
  rw [await_eq_stir]
  unfold stir
  split <;> rfl

/-- Taking account of arrivals lowers the count, each time by one; it fails only at an arrival. -/
theorem inFlight_receiveAll {env env' : Environment} {answer : Except LoaderError Unit}
    {arrivals : List Arrival} (hcount : arrivals.length ≤ env.inFlight)
    (h : env.receiveAll arrivals = (answer, env')) :
    env'.inFlight ≤ env.inFlight ∧ (answer ≠ .ok () → env'.inFlight < env.inFlight) := by
  induction arrivals generalizing env with
  | nil =>
    cases h
    exact ⟨Nat.le_refl _, fun hne => absurd rfl hne⟩
  | cons arrival rest ih =>
    have hone := inFlight_receive env arrival rest
    rw [List.length_cons] at hcount
    rw [receiveAll_cons] at h
    unfold ModuleLoader.andThen at h
    rcases hr : env.receive arrival rest with ⟨e | u, mid⟩
    · rw [hr] at h hone
      cases h
      simp only at hone
      exact ⟨by omega, fun _ => by omega⟩
    · rw [hr] at h hone
      simp only at h hone
      obtain ⟨hle, -⟩ := ih (by omega) h
      exact ⟨by omega, fun _ => by omega⟩

/-- Settling leaves no more in flight than before, and less where it fails. -/
theorem inFlight_settleAll {env env' : Environment} {answer : Except LoaderError Unit}
    (h : env.settleAll = (answer, env')) :
    env'.inFlight ≤ env.inFlight ∧ (answer ≠ .ok () → env'.inFlight < env.inFlight) := by
  fun_induction settleAll env with
  | case1 env hzero =>
    cases h
    exact ⟨Nat.le_refl _, fun hne => absurd rfl hne⟩
  | case2 env hne harr =>
    cases h
    rw [inFlight_await]
    exact ⟨Nat.le_refl _, fun hne => absurd rfl hne⟩
  | case3 env hne arrival rest harr e env'' hr =>
    have hone := inFlight_receive env.await arrival rest
    rw [hr, inFlight_await] at hone
    cases h
    simp only at hone
    exact ⟨by omega, fun _ => by omega⟩
  | case4 env hne arrival rest harr env'' hr ih =>
    have hone := inFlight_receive env.await arrival rest
    rw [hr, inFlight_await] at hone
    simp only at hone
    obtain ⟨hle, -⟩ := ih h
    exact ⟨by omega, fun _ => by omega⟩

/-- Settling that fails has taken account of an arrival. -/
theorem Upright.inFlight_settling (h : env.Upright) {e : LoaderError}
    (hs : env.settling = (.error e, env')) : env'.inFlight < env.inFlight := by
  have hcount : env.schedule.arrived.length ≤ env.inFlight := by
    rw [h.flight.inFlight]
    exact Nat.le_add_right _ _
  unfold settling ModuleLoader.andThen at hs
  rcases hd : env.drain with ⟨e' | u, mid⟩
  · rw [hd] at hs
    cases hs
    exact (inFlight_receiveAll hcount hd).2 nofun
  · rw [hd] at hs
    simp only at hs
    exact Nat.lt_of_lt_of_le ((inFlight_settleAll hs).2 nofun) (inFlight_receiveAll hcount hd).1

/-- Once settling does not fail, no module is requested, unless modules are held back. -/
theorem Upright.not_requested (h : env.Upright) (hready : env.documentWrite = false)
    (hs : env.settling = (.ok (), env')) (id : String) :
    ¬ (env.perform .settle).2.store.Requested id := by
  obtain ⟨asked, -, hsteps⟩ := (settling_leads .insideEventLoop env).steps
  rw [hs] at hsteps
  have hend : env'.Upright := h.steps (hsteps .empty)
  have hk : env.Kept env' := (hsteps .empty).kept
  have hreleased : env'.documentWrite = false := hk.released hready
  obtain ⟨harrived, houtstanding⟩ := settling_ends h.flight h.concurrency hs
  have hnone : Moment.transit ⟨env', [], .empty⟩ = [] := by
    simp [Moment.transit, hend.flight.held hreleased, harrived, houtstanding]
  have hstore : (env.perform .settle).2.store = env'.store := by
    obtain ⟨journal, hreport⟩ := env'.report_frame
    rw [Environment.perform, settle_of_ok hs]
    simp only [hreport]
  intro hreq
  rw [hstore] at hreq
  have hmem := hend.accounted.requested id hreq
  rw [hnone] at hmem
  cases hmem

/-- Settling often enough leaves no module requested, unless modules are held back. -/
theorem Upright.settles (h : env.Upright) (hready : env.documentWrite = false) (most : Nat)
    (hmost : env.inFlight ≤ most) :
    ∃ n ≤ most + 1, ∀ id, ¬ (env.run (List.replicate n .settle)).2.store.Requested id := by
  induction most generalizing env with
  | zero =>
    rcases hs : env.settling with ⟨e | u, env'⟩
    · have hlt := h.inFlight_settling hs
      omega
    · exact ⟨1, Nat.le_refl _, h.not_requested hready hs⟩
  | succ most ih =>
    rcases hs : env.settling with ⟨e | u, env'⟩
    · -- The failure has lowered the count, so that fewer attempts are left to make.
      have hlt := h.inFlight_settling hs
      have hperform : (env.perform .settle).2 = env' := by
        rw [Environment.perform, settle_of_error hs]
      have hnext : env'.Upright := by
        rw [← hperform]
        exact h.perform .settle
      have hk : env.Kept env' := by
        have hleads := settling_leads .insideEventLoop env
        rw [hs] at hleads
        exact hleads.kept
      obtain ⟨n, hn, hnone⟩ := ih hnext (hk.released hready) (by omega)
      refine ⟨n + 1, by omega, ?_⟩
      rw [List.replicate_succ, run_cons, hperform]
      exact hnone
    · exact ⟨1, by omega, h.not_requested hready hs⟩

/-- Whatever was done, the document may become ready and settling may be tried again until no module
is requested; one attempt is enough where loading goes on after failures. -/
theorem Upright.finishes (h : env.Upright) : ∃ n ≤ env.inFlight + 1, ∀ id,
    ¬ (env.run (.documentReady .insideEventLoop :: List.replicate n .settle)).2.store.Requested
      id := by
  have hnext := h.perform (.documentReady .insideEventLoop)
  have hready := documentWrite_documentReady h.retrieving
  by_cases hd : env.documentWrite = true
  · have hforward := h.retrieving.held hd
    refine ⟨1, by omega, ?_⟩
    have hk := (documentReady_leads .insideEventLoop h.retrieving).kept
    have hok := (settling_leads .insideEventLoop
      (env.documentReady .insideEventLoop).2).ok (by rw [hk.profile]; exact hforward) rfl
    rw [run_cons]
    exact hnext.not_requested hready (Prod.ext hok rfl)
  · have hnothing : (env.perform (.documentReady .insideEventLoop)).2 = env := by
      simp [Environment.perform, unreported, documentReady, hd]
    rw [Bool.not_eq_true] at hd
    obtain ⟨n, hn, hnone⟩ := h.settles hd env.inFlight (Nat.le_refl _)
    refine ⟨n, hn, ?_⟩
    rw [run_cons, hnothing]
    exact hnone

/-! ## Runs -/

/-- An environment on a host that retrieves modules may be given any actions, and each may fail.
After them, and at every step of a loading action that comes next, the order, the records and the
retrievals fit together; and no module stays requested for good, because settling may be tried again
until none is. -/
theorem run_consistent (config : Configuration) (hhost : config.host.profile.behavior = .retrieve)
    (transport : Transport) {engine : Script.Engine} (made : Environment)
    (hmake : make config transport engine = .ok made)
    (specs : List ModuleSpec) (actions : List Action) :
    let after := ((made.withSpecs specs).run actions).2
    Moment.Consistent ⟨after, [], .empty⟩ ∧
      (∀ action : Action, action.isLoading = true →
        ∃ log, Moment.Steps ⟨after, [], .empty⟩ ⟨(after.perform action).2, [], log⟩) ∧
      (∀ m, Moment.Steps ⟨after, [], .empty⟩ m → m.Consistent) ∧
      ∃ n ≤ after.inFlight + 1, ∀ id,
        ¬ (after.run (.documentReady .insideEventLoop ::
          List.replicate n .settle)).2.store.Requested id := by
  intro after
  obtain ⟨hmade, hconfig, -⟩ := fresh_of_make hmake
  have hbehavior : (made.withSpecs specs).profile.behavior = .retrieve := by
    rw [← hhost, ← hconfig]
    rfl
  have hafter : after.Upright := ((hmade.withSpecs specs).upright hbehavior).run actions
  refine ⟨hafter.moment .refl, ?_, fun m hm => hafter.moment hm, hafter.finishes⟩
  intro action hl
  obtain ⟨asked, -, hsteps⟩ := (perform_steps hafter.retrieving hl).1
  exact ⟨_, hsteps .empty⟩

/-- A worker may retrieve concurrently; of two modules the first has arrived and was counted as
loaded before, and the second is still on its way. -/
theorem run_consistent_arrived :
    let config := { Configuration.default with host := .worker, aliases := [] }
    let bundle := Bundle.empty.add [("a.js", ""), ("b.js", "")] [] []
    let specs := [ModuleSpec.mk "a" "a.js" false, ⟨"b", "b.js", false⟩]
    let actions := [Action.load .insideEventLoop ["a", "b"], .turn 0, .setLoaded "a"]
    config.host.profile.behavior = .retrieve ∧
      ∃ made, make config (.concurrent (.bundle bundle)) = .ok made ∧
        let after := ((made.withSpecs specs).run actions).2
        after.inFlight = 2 ∧ after.schedule.arrived.length = 1 ∧
          after.store.state? "a" = some .evaluated ∧ after.store.state? "b" = some .requested ∧
          Moment.Consistent ⟨after, [], .empty⟩ ∧
          ∃ n ≤ 3, ∀ id, ¬ (after.run (.documentReady .insideEventLoop ::
            List.replicate n .settle)).2.store.Requested id := by
  intro config bundle specs actions
  obtain ⟨made, hmade, hinFlight, harrived, hfirst, hsecond⟩ : ∃ made,
      make config (.concurrent (.bundle bundle)) = .ok made ∧
      ((made.withSpecs specs).run actions).2.inFlight = 2 ∧
      ((made.withSpecs specs).run actions).2.schedule.arrived.length = 1 ∧
      ((made.withSpecs specs).run actions).2.store.state? "a" = some .evaluated ∧
      ((made.withSpecs specs).run actions).2.store.state? "b" = some .requested :=
    ⟨_, rfl, by decide +kernel +revert⟩
  obtain ⟨hconsistent, -, -, hfinishes⟩ :=
    run_consistent config rfl (.concurrent (.bundle bundle)) made hmade specs actions
  rw [hinFlight] at hfinishes
  exact ⟨rfl, made, hmade, hinFlight, harrived, hfirst, hsecond, hconsistent, hfinishes⟩

end Environment

end ModuleLoader
