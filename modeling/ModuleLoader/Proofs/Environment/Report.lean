import ModuleLoader.Proofs.Environment.Recording

/-!
# Reports and evaluations

The modules that an environment evaluates come in batches: one for every flush, and one for every
given code that is evaluated.  A batch is noted by the evaluator itself, so that it can be compared
with what the reports say.  A flush that a failure stops hands its batch to no report: what it had
evaluated before is never told.  Main statement: `run_told_iff`, the reports tell every evaluation
once and in order just when no flush was stopped after it had evaluated something.
-/

set_option autoImplicit false

namespace ModuleLoader

/-! ## What an evaluator notes -/

/-- Every record is kept under its own id. -/
def ModuleStore.Keyed (s : ModuleStore) : Prop :=
  ∀ id record, s.get? id = some record → record.id = id

namespace ModuleStore

/-- A record may be set under its own id. -/
theorem Keyed.set {s : ModuleStore} (h : s.Keyed) {id : String} {record : ModuleRecord}
    (hid : record.id = id) : Keyed (s.set id record) := by
  intro other r hr
  rw [Table.get?_set] at hr
  split at hr
  · rename_i he
    cases hr
    rw [he]
    exact hid
  · exact h other r hr

/-- Records stay under their ids when a module advances. -/
theorem Keyed.advance {s : ModuleStore} (h : s.Keyed) (id : String) (next : ModuleState) :
    (s.advance id next).2.Keyed := by
  rcases s.advance_cases id next with ha | ⟨record, hr, -, ha⟩
  · rw [ha]
    exact h
  · rw [ha]
    exact h.set (h id record hr)

/-- Records stay under their ids when a state is forced. -/
theorem Keyed.force {s : ModuleStore} (h : s.Keyed) (id : String) (state : ModuleState) :
    (s.force id state).Keyed := by
  unfold ModuleStore.force
  cases hr : s.get? id with
  | none => exact h.set rfl
  | some record => exact h.set (h id record hr)

/-- Records stay under their ids when one is made. -/
theorem Keyed.ensure {s : ModuleStore} (h : s.Keyed) (spec : ModuleSpec) :
    (s.ensure spec).2.Keyed := by
  unfold ModuleStore.ensure
  cases s.get? spec.id with
  | none => exact h.set rfl
  | some record => exact h

/-- Records are under their ids in every store that follows. -/
theorem Follows.keyed {t s : ModuleStore} (h : t.Follows s) (hs : s.Keyed) : t.Keyed := by
  intro id record hr
  rcases h id with he | ⟨before, code, result, hb, ht⟩
  · rw [he] at hr
    exact hs id record hr
  · rw [ht] at hr
    cases hr
    exact hs id before hb.1

end ModuleStore

namespace Flush

open ModuleStore

variable {σ : Type}

/-- A flush whose report is changed is one that was not stopped. -/
theorem ok_of_reporting {g : FlushReport → FlushReport} {f : Flush σ} {r : FlushReport}
    (h : (f.reporting g).outcome = .ok r) : ∃ r', f.outcome = .ok r' ∧ r = g r' := by
  unfold reporting at h
  cases hf : f.outcome with
  | error failure =>
    rw [hf] at h
    cases h
  | ok r' =>
    rw [hf] at h
    cases h
    exact ⟨r', rfl, rfl⟩

/-- Taking notes changes nothing else, and a report lists just what has been noted. -/
theorem through_noting (policy : FailurePolicy) (evaluate : Evaluator σ) (ids : List String)
    (store : ModuleStore) (state : σ) (seen : List String) (hk : store.Keyed) :
    ∃ evaluated,
      through policy evaluate.noting ids store (state, seen) =
        { through policy evaluate ids store state with
          state := ((through policy evaluate ids store state).state, seen ++ evaluated) } ∧
      ∀ r, (through policy evaluate ids store state).outcome = .ok r → r.evaluated = evaluated := by
  induction ids generalizing store state seen with
  | nil =>
    refine ⟨[], by simp [through], ?_⟩
    rintro r hr
    cases hr
    rfl
  | cons id rest ih =>
    rcases store.settled_or_blocks_or_ready id with hs | hb | ⟨record, code, hr⟩
    · obtain ⟨evaluated, heq, hreport⟩ := ih store state seen hk
      rw [through_settled hs, through_settled hs, heq]
      exact ⟨evaluated, rfl, hreport⟩
    · rw [through_blocks hb, through_blocks hb]
      refine ⟨[], by simp, ?_⟩
      rintro r hr
      cases hr
      rfl
    · have hid := hk id record hr.1
      rcases he : evaluate record code state with ⟨failure | u, state'⟩
      · -- A failed evaluation is not noted; what follows depends on the policy.
        have hen : evaluate.noting record code (state, seen) = (.error failure, state', seen) := by
          simp [Evaluator.noting, he]
        cases policy with
        | failFast =>
          rw [through_stops hr he, through_stops hr hen]
          refine ⟨[], by simp, ?_⟩
          intro r hr
          cases hr
        | failForward =>
          have hkeyed := (follows_conclude hr (.error failure)).keyed hk
          obtain ⟨evaluated, heq, hreport⟩ :=
            ih (store.conclude id record (.error failure)) state' seen hkeyed
          rw [through_ready hr he fun _ _ => rfl, through_ready hr hen fun _ _ => rfl, heq]
          refine ⟨evaluated, rfl, ?_⟩
          intro r hout
          obtain ⟨r', hr', rfl⟩ := ok_of_reporting hout
          exact hreport r' hr'
      · have hen : evaluate.noting record code (state, seen) = (.ok (), state', seen ++ [id]) := by
          simp [Evaluator.noting, he, hid]
        have hkeyed := (follows_conclude hr (.ok ())).keyed hk
        obtain ⟨evaluated, heq, hreport⟩ :=
          ih (store.conclude id record (.ok ())) state' (seen ++ [id]) hkeyed
        have hgo : ∀ failure, (Except.ok () : Except EvaluationFailure Unit) = .error failure →
            policy = .failForward := by
          intro failure hfailure
          cases hfailure
        rw [through_ready hr he hgo, through_ready hr hen hgo, heq]
        refine ⟨id :: evaluated, by simp [passing, reporting], ?_⟩
        intro r hout
        obtain ⟨r', hr', rfl⟩ := ok_of_reporting hout
        exact congrArg (id :: ·) (hreport r' hr')

end Flush

/-! ## Batches -/

namespace Batch

/-- What the progress takes over: nothing from a flush that was stopped. -/
def reported (b : Batch) : List String :=
  match b.stopped with
  | none => b.evaluated
  | some _ => []

/-- A batch reports no more than it evaluated. -/
theorem reported_sublist (b : Batch) : b.reported.Sublist b.evaluated := by
  unfold reported
  split
  · exact .refl _
  · exact List.nil_sublist _

/-- A history reports no more than it evaluated. -/
theorem flatMap_reported_sublist (history : List Batch) :
    (history.flatMap reported).Sublist (history.flatMap evaluated) := by
  induction history with
  | nil => exact .refl _
  | cons b history ih =>
    rw [List.flatMap_cons, List.flatMap_cons]
    exact b.reported_sublist.append ih

/-- Everything evaluated is reported just when no flush was stopped after an evaluation. -/
theorem flatMap_reported_eq_iff (history : List Batch) :
    history.flatMap reported = history.flatMap evaluated ↔
      ∀ b ∈ history, b.stopped ≠ none → b.evaluated = [] := by
  induction history with
  | nil => simp
  | cons b history ih =>
    rw [List.flatMap_cons, List.flatMap_cons, List.forall_mem_cons]
    cases hs : b.stopped with
    | none =>
      have hr : b.reported = b.evaluated := by rw [reported, hs]
      rw [hr, List.append_cancel_left_eq, ih]
      simp
    | some failure =>
      have hr : b.reported = [] := by rw [reported, hs]
      rw [hr, List.nil_append, ← ih]
      constructor
      · intro h
        have hle := (flatMap_reported_sublist history).length_le
        have hlength := congrArg List.length h
        rw [List.length_append] at hlength
        have hnone : b.evaluated = [] := List.eq_nil_of_length_eq_zero (by omega)
        rw [hnone, List.nil_append] at h
        exact ⟨fun _ => hnone, h⟩
      · rintro ⟨hnone, h⟩
        rw [hnone (by simp), h, List.nil_append]

end Batch

namespace Environment

/-! ## What becomes of a batch -/

/-- The outcome of an operation tells its batches: the progress has grown by what they report, and
only a failure that is answered can have stopped one. -/
structure Tells (env : Environment) (r : Noted Unit) : Prop where
  config : r.outcome.2.config = env.config
  keyed : r.outcome.2.store.Keyed
  evaluated : r.outcome.2.progress.evaluated =
    env.progress.evaluated ++ r.batches.flatMap Batch.reported
  stopped : ∀ b ∈ r.batches, ∀ failure, b.stopped = some failure →
    env.profile.policy = .failFast ∧ r.outcome.1 = .error (.evaluation failure)

variable {env env' : Environment} {r : Noted Unit}

/-- An operation that evaluates nothing has nothing to tell. -/
theorem Tells.silent {answer : Except LoaderError Unit} (hk : env'.store.Keyed)
    (hc : env'.config = env.config) (hp : env'.progress.evaluated = env.progress.evaluated) :
    Tells env (.silent (answer, env')) where
  config := hc
  keyed := hk
  evaluated := by
    show _ = _ ++ List.flatMap _ []
    rw [List.flatMap_nil, List.append_nil]
    exact hp
  stopped := nofun

/-- What was done before and evaluated nothing makes no difference. -/
theorem Tells.of_eq (h : Tells env' r) (hc : env'.config = env.config)
    (hp : env'.progress.evaluated = env.progress.evaluated) : Tells env r where
  config := h.config.trans hc
  keyed := h.keyed
  evaluated := by
    rw [h.evaluated, hp]
  stopped b hb failure hs := by
    have hstopped := h.stopped b hb failure hs
    unfold profile host at hstopped
    rw [hc] at hstopped
    exact hstopped

/-- What two operations tell, one after the other, is what both together tell. -/
theorem Tells.trans {notes : List Note} (h : Tells env ⟨(.ok (), env'), notes⟩) (h' : Tells env' r) :
    Tells env ⟨r.outcome, notes ++ r.notes⟩ where
  config := h'.config.trans h.config
  keyed := h'.keyed
  evaluated := by
    rw [Noted.batches_append, List.flatMap_append, ← List.append_assoc]
    exact h'.evaluated.trans (congrArg (· ++ _) h.evaluated)
  stopped b hb failure hs := by
    rw [Noted.batches_append] at hb
    rcases List.mem_append.1 hb with hb | hb
    · cases (h.stopped b hb failure hs).2
    · have hstopped := h'.stopped b hb failure hs
      have hconfig : env'.config = env.config := h.config
      unfold profile host at hstopped
      rw [hconfig] at hstopped
      exact hstopped

/-- A flush tells what its evaluator has noted, unless it is stopped. -/
theorem flush_tells (hk : env.store.Keyed) : Tells env env.recordFlush := by
  obtain ⟨evaluated, hnoting, hreport⟩ := Flush.through_noting env.profile.policy
    (evaluator env.config.wrapOptions) env.order.pending env.store env.layer [] hk
  have hkeyed : env.orderFlush.store.Keyed :=
    (Flush.through_standing env.order.pending env.store env.layer).2.1.keyed hk
  have hbatches : env.recordFlush.batches = [env.flushBatch] := rfl
  cases hout : env.orderFlush.outcome with
  | ok report =>
    obtain ⟨hanswer, journal, hflush⟩ := env.flush_of_ok hout
    have hbatch : env.flushBatch = ⟨report.evaluated, none⟩ := by
      unfold orderFlush at hout
      simp only [flushBatch, hnoting, hout, List.nil_append, hreport report hout]
    refine ⟨?_, ?_, ?_, ?_⟩
    · rw [recordFlush, hflush]
    · rw [recordFlush, hflush]
      exact hkeyed
    · rw [hbatches, hbatch, recordFlush, hflush]
      simp [Batch.reported]
    · intro b hb failure hs
      rw [hbatches, hbatch] at hb
      cases List.mem_singleton.1 hb
      cases hs
  | error failure =>
    obtain ⟨hanswer, journal, hflush⟩ := env.flush_of_error hout
    have hbatch : env.flushBatch = ⟨evaluated, some failure⟩ := by
      unfold orderFlush at hout
      simp only [flushBatch, hnoting, hout, List.nil_append]
    have hpolicy : env.profile.policy = .failFast := by
      cases hp : env.profile.policy with
      | failFast => rfl
      | failForward =>
        unfold orderFlush at hout
        obtain ⟨⟨report, hr⟩, -⟩ := Flush.through_failForward (evaluator env.config.wrapOptions)
          env.order.pending env.store env.layer
        rw [hp, hr] at hout
        cases hout
    refine ⟨?_, ?_, ?_, ?_⟩
    · rw [recordFlush, hflush]
    · rw [recordFlush, hflush]
      exact hkeyed
    · rw [hbatches, hbatch, recordFlush, hflush]
      simp [Batch.reported]
    · intro b hb failure' hs
      rw [hbatches, hbatch] at hb
      cases List.mem_singleton.1 hb
      cases hs
      exact ⟨hpolicy, hanswer⟩

/-- Moving a record for an arrival evaluates nothing. -/
theorem evaluated_noteArrival (env : Environment) (id : String)
    (result : Except RetrievalFailure String) :
    (env.noteArrival id result).progress.evaluated = env.progress.evaluated := by
  unfold noteArrival
  split
  · rfl
  · split <;> rfl

/-- Taking account of a retrieval tells the batch of the flush, if it comes to one. -/
theorem complete_tells (hk : env.store.Keyed) (id : String)
    (result : Except RetrievalFailure String) : Tells env (env.recordComplete id result) := by
  obtain ⟨journal, progress, hn⟩ := env.noteArrival_frame id result
  have hconfig : (env.noteArrival id result).config = env.config := by rw [hn]
  have hkeyed : (env.noteArrival id result).store.Keyed := by
    rw [hn]
    exact hk.advance id _
  have hevaluated := env.evaluated_noteArrival id result
  unfold recordComplete
  cases hs : env.stopsAt id result with
  | false => exact (flush_tells hkeyed).of_eq hconfig hevaluated
  | true =>
    obtain ⟨failure, hc⟩ := complete_of_stops hs
    rw [if_pos rfl, hc]
    exact .silent hkeyed hconfig hevaluated

/-- Starting a retrieval evaluates nothing, unless it is completed at once. -/
theorem start_tells (hk : env.store.Keyed) (caller : Caller) (spec : ModuleSpec) :
    Tells env (env.recordStart caller spec) := by
  unfold recordStart
  split
  · cases ht : env.transport with
    | concurrent medium =>
      have hspawned : Tells env (.silent (env.start spec)) := by
        simp only [start, ht]
        exact .silent hk rfl rfl
      exact ⟨hspawned.config, hspawned.keyed, hspawned.evaluated, hspawned.stopped⟩
    | serial medium =>
      have hcomplete := @complete_tells
        { env with transport := .serial (medium.lookUp spec.location).2 } hk spec.id
        (medium.lookUp spec.location).1
      exact ⟨hcomplete.config, hcomplete.keyed, hcomplete.evaluated, hcomplete.stopped⟩
    | none =>
      simp only [start, ht]
      exact .silent hk rfl rfl
  · exact .silent hk rfl rfl

/-- Taking account of an arrival tells what the retrieval makes ready. -/
theorem receive_tells (hk : env.store.Keyed) (arrival : Arrival) (rest : List Arrival) :
    Tells env (env.recordReceive arrival rest) := by
  have hcomplete := @complete_tells { env with
    schedule := { env.schedule with arrived := rest }
    inFlight := env.inFlight - 1 } hk arrival.id arrival.result
  exact hcomplete.of_eq rfl rfl

/-- What is evaluated where the loader waits for an arrival is told from where it began to wait. -/
theorem await_tells (hk : env.store.Keyed) : Tells env (.silent (.ok (), env.await)) := by
  obtain ⟨schedule, transport, hstir⟩ := env.stir_frame Schedule.await
  rw [await_eq_stir, hstir]
  exact .silent hk rfl rfl

/-- All parts of operations tell their batches. -/
theorem assembles_tells : Assembles fun env r => env.store.Keyed → Tells env r where
  nothing _ hk := .silent hk rfl rfl
  refused _ _ _ hk := .silent hk rfl rfl
  announce _ _ _ hk := .silent hk rfl rfl
  register _ _ _ hk := .silent (hk.ensure _) rfl rfl
  hold _ _ _ hk := .silent hk rfl rfl
  setLoaded _ id hk := .silent (hk.force id .evaluated) rfl rfl
  start _ caller spec hk := start_tells hk caller spec
  receive _ hk := receive_tells hk _ _
  await _ hk := await_tells hk
  trans hfirst hnext hk := (hfirst hk).trans (hnext (hfirst hk).keyed)

/-- Letting go what is held back evaluates nothing. -/
theorem released_tells (hk : env.store.Keyed) : Tells env (.silent (.ok (), env.released)) :=
  .silent hk rfl rfl

/-- Given code that comes to an end is a batch of its own before that of the flush. -/
theorem evalLoad_tells (hk : env.store.Keyed) (path : String) (hasSourceMap : Bool)
    (code : String) : Tells env (env.recordEvalLoad path hasSourceMap code) := by
  cases ha : env.acceptsCode with
  | false =>
    have hnothing : env.recordEvalLoad path hasSourceMap code =
        .silent (.error (.unsupported env.host.name "eval_load"), env) := by
      simp [recordEvalLoad, evalLoad, ha, Noted.silent]
    rw [hnothing]
    exact .silent hk rfl rfl
  | true =>
    obtain ⟨journal, heval⟩ := evalLoad_eq ha path hasSourceMap code
    simp only [recordEvalLoad, ha, heval, Bool.not_true, Bool.false_eq_true, if_false]
    cases env.outcomeOf path hasSourceMap code with
    | error failure => exact .silent (hk.force path _) rfl rfl
    | ok u =>
      have hflush := @flush_tells { env with
        journal
        layer := env.layerAfter path hasSourceMap code
        store := env.store.force path .evaluated
        progress := ⟨env.progress.evaluated ++ [path], env.progress.failed⟩ } (hk.force path _)
      refine ⟨hflush.config, hflush.keyed, ?_, ?_⟩
      · exact hflush.evaluated.trans (List.append_assoc ..)
      · intro b hb failure hs
        rcases List.mem_cons.1 hb with rfl | hb
        · cases hs
        · exact hflush.stopped b hb failure hs

/-! ## Runs -/

/-- The modules that some answers and the progress after them list as evaluated. -/
def told (answers : List (Except LoaderError (Option LoadReport))) (after : Environment) :
    List String :=
  (reportsOf answers).flatMap (·.evaluated) ++ after.progress.evaluated

/-- The result of an action tells its batches, in the report handed out or in the progress. -/
structure Answers (env : Environment) (r : Noted (Option LoadReport)) : Prop where
  config : r.outcome.2.config = env.config
  keyed : r.outcome.2.store.Keyed
  told : told [r.outcome.1] r.outcome.2 =
    env.progress.evaluated ++ r.batches.flatMap Batch.reported
  stopped : ∀ b ∈ r.batches, ∀ failure, b.stopped = some failure →
    env.profile.policy = .failFast ∧ r.outcome.1 = .error (.evaluation failure)

/-- An operation that hands out no report tells its batches in the progress. -/
theorem Tells.unreported (h : Tells env r) : Answers env r.unreported where
  config := h.config
  keyed := h.keyed
  told := by
    refine Eq.trans ?_ h.evaluated
    rcases r with ⟨⟨_ | _, env'⟩, notes⟩ <;> rfl
  stopped b hb failure hs := by
    obtain ⟨hpolicy, hanswer⟩ := h.stopped b hb failure hs
    refine ⟨hpolicy, ?_⟩
    rw [Noted.unreported, Environment.unreported, hanswer]
    rfl

/-- An operation that hands out a report tells its batches in it. -/
theorem Tells.reporting (h : Tells env r) : Answers env r.reporting := by
  obtain ⟨⟨e | u, env'⟩, notes⟩ := r
  · exact h.unreported
  · obtain ⟨journal, hreport⟩ := env'.report_frame
    simp only [Noted.reporting, hreport]
    refine ⟨h.config, h.keyed, ?_, ?_⟩
    · refine Eq.trans ?_ h.evaluated
      simp [told, reportsOf, reportNow]
    · intro b hb failure hstopped
      cases (h.stopped b hb failure hstopped).2

/-- Every action tells its batches. -/
theorem record_answers (hk : env.store.Keyed) (action : Action) :
    Answers env (env.record action) := by
  have hrelease := fun env : Environment => @released_tells env
  cases action with
  | load caller paths =>
    exact (assembles_tells.loadWith hrelease env caller paths env.config.forceAsync hk).unreported
  | loadWith caller paths atOnce =>
    exact (assembles_tells.loadWith hrelease env caller paths atOnce hk).unreported
  | documentReady caller =>
    exact (assembles_tells.documentReady hrelease env caller hk).unreported
  | evalLoad path hasSourceMap code => exact (evalLoad_tells hk path hasSourceMap code).unreported
  | settle => exact (assembles_tells.settling env hk).reporting
  -- The other actions are answered at once and evaluate nothing.
  | setLoaded id => exact (assembles_tells.setLoaded env id hk).unreported
  | turn n =>
    have hnothing : Tells env (.silent (.ok (), env.turn n)) := by
      obtain ⟨schedule, transport, hstir⟩ :=
        env.stir_frame fun schedule medium => schedule.turn medium n
      rw [turn_eq_stir, hstir]
      exact .silent hk rfl rfl
    exact hnothing.unreported
  | rouse n =>
    have hnothing : Tells env (.silent (.ok (), { env with schedule := env.schedule.rouse n })) :=
      .silent hk rfl rfl
    exact hnothing.unreported
  | supply content =>
    have hnothing : Tells env (.silent (.ok (), env.supply content)) := by
      obtain ⟨transport, hsupply, -⟩ := env.supply_frame content
      rw [hsupply]
      exact .silent hk rfl rfl
    exact hnothing.unreported

/-- The first answer of some tells what its report lists. -/
theorem told_cons (answer : Except LoaderError (Option LoadReport))
    (answers : List (Except LoaderError (Option LoadReport))) (after : Environment) :
    told (answer :: answers) after =
      (reportsOf [answer]).flatMap (·.evaluated) ++ told answers after := by
  unfold told
  rw [reportsOf_cons, List.flatMap_append, List.append_assoc]

/-- A run tells its batches, in the reports handed out or in the progress after it. -/
theorem run_answers (hk : env.store.Keyed) (actions : List Action) :
    told (env.run actions).1 (env.run actions).2 =
        env.progress.evaluated ++ (env.history actions).flatMap Batch.reported ∧
      ∀ b ∈ env.history actions, ∀ failure, b.stopped = some failure →
        env.profile.policy = .failFast ∧ .error (.evaluation failure) ∈ (env.run actions).1 := by
  induction actions generalizing env with
  | nil =>
    refine ⟨?_, nofun⟩
    show env.progress.evaluated = env.progress.evaluated ++ List.flatMap _ []
    rw [List.flatMap_nil, List.append_nil]
  | cons action actions ih =>
    have hfirst := record_answers hk action
    obtain ⟨hconfig, hkeyed, hone, hfirstStopped⟩ := hfirst
    rw [record_outcome] at hconfig hkeyed hone hfirstStopped
    obtain ⟨htold, hstopped⟩ := ih hkeyed
    have hpolicy : (env.perform action).2.profile.policy = env.profile.policy := by
      unfold profile host
      rw [hconfig]
    rw [run_cons, history_cons]
    constructor
    · -- The reports of the first action and the progress after it tell its own batches.
      unfold told at hone
      rw [told_cons, htold, ← List.append_assoc, hone, List.append_assoc, List.flatMap_append]
    · intro b hb failure hs
      rcases List.mem_append.1 hb with hb | hb
      · obtain ⟨hfast, hanswer⟩ := hfirstStopped b hb failure hs
        exact ⟨hfast, by rw [hanswer]; exact List.mem_cons_self⟩
      · obtain ⟨hfast, hanswer⟩ := hstopped b hb failure hs
        rw [hpolicy] at hfast
        exact ⟨hfast, List.mem_cons_of_mem _ hanswer⟩

/-- A loader may be given any actions, and each may fail.  The reports that settling hands out and
the progress after them tell, in order and once each, all modules evaluated by flushes that were not
stopped and all given code that was evaluated.  So they tell every evaluation just when no flush was
stopped after it had evaluated something.  Only a failure that is answered as an error stops a flush,
and none does where loading goes on after failures. -/
theorem run_told_iff (config : Configuration) (transport : Transport)
    {engine : Script.Engine} (made : Environment)
    (hmake : make config transport engine = .ok made) (specs : List ModuleSpec)
    (actions : List Action) :
    let env := made.withSpecs specs
    let (answers, after) := env.run actions
    told answers after = (env.history actions).flatMap Batch.reported ∧
      (told answers after = (env.history actions).flatMap Batch.evaluated ↔
        ∀ b ∈ env.history actions, b.stopped ≠ none → b.evaluated = []) ∧
      (∀ b ∈ env.history actions, ∀ failure, b.stopped = some failure →
        config.host.profile.policy = .failFast ∧ .error (.evaluation failure) ∈ answers) ∧
      (config.host.profile.policy = .failForward →
        told answers after = (env.history actions).flatMap Batch.evaluated) := by
  intro env
  obtain ⟨hmade, hconfig, -⟩ := fresh_of_make hmake
  have hfresh : env.Fresh := hmade.withSpecs specs
  have hkeyed : env.store.Keyed := by
    intro id record hr
    rw [hfresh.store] at hr
    cases hr
  have hpolicy : env.profile.policy = config.host.profile.policy := by
    rw [← hconfig]
    rfl
  obtain ⟨htold, hstopped⟩ := run_answers hkeyed actions
  rw [hpolicy] at hstopped
  have hreported : told (env.run actions).1 (env.run actions).2 =
      (env.history actions).flatMap Batch.reported := by
    rw [htold, hfresh.progress]
    rfl
  have hiff : told (env.run actions).1 (env.run actions).2 =
      (env.history actions).flatMap Batch.evaluated ↔
        ∀ b ∈ env.history actions, b.stopped ≠ none → b.evaluated = [] := by
    rw [hreported]
    exact Batch.flatMap_reported_eq_iff _
  refine ⟨hreported, hiff, hstopped, ?_⟩
  intro hforward
  rw [hiff]
  intro b hb hne
  obtain ⟨failure, hs⟩ := Option.ne_none_iff_exists'.1 hne
  have hfast := (hstopped b hb failure hs).1
  rw [hforward] at hfast
  cases hfast

/-- The first of three modules is not found and is given as code later; the flush that follows
evaluates the second, which no report tells, and is stopped by the third. -/
theorem run_told_iff_stopped :
    let config := { Configuration.default with host := .node, aliases := [] }
    let bundle := Bundle.empty.add [("b.js", ""), ("c.js", "x")] [] []
    let specs := [ModuleSpec.mk "a" "a.js" false, ⟨"b", "b.js", false⟩, ⟨"c", "c.js", false⟩]
    let actions := [Action.load .insideEventLoop ["a"], .load .insideEventLoop ["b", "c"],
      .evalLoad "a" false "", .settle]
    ∃ made, make config (.serial (.bundle bundle)) = .ok made ∧
      let env := made.withSpecs specs
      let (answers, after) := env.run actions
      told answers after = ["a"] ∧ (env.history actions).flatMap Batch.evaluated = ["a", "b"] ∧
        ∃ b ∈ env.history actions, ∃ failure, b.stopped = some failure ∧ b.evaluated ≠ [] ∧
          .error (.evaluation failure) ∈ answers := by
  intro config bundle specs actions
  obtain ⟨made, hmade, htold, hevaluated⟩ : ∃ made,
      make config (.serial (.bundle bundle)) = .ok made ∧
      told ((made.withSpecs specs).run actions).1 ((made.withSpecs specs).run actions).2 = ["a"] ∧
      ((made.withSpecs specs).history actions).flatMap Batch.evaluated = ["a", "b"] :=
    ⟨_, rfl, by decide +kernel +revert⟩
  obtain ⟨-, hiff, hstopped, -⟩ :=
    run_told_iff config (.serial (.bundle bundle)) made hmade specs actions
  have hlost : ¬ ∀ b ∈ (made.withSpecs specs).history actions, b.stopped ≠ none →
      b.evaluated = [] := by
    intro hall
    have hevery : told ((made.withSpecs specs).run actions).1
        ((made.withSpecs specs).run actions).2 =
        ((made.withSpecs specs).history actions).flatMap Batch.evaluated := hiff.2 hall
    rw [htold, hevaluated] at hevery
    cases hevery
  push Not at hlost
  obtain ⟨b, hb, hne, hsome⟩ := hlost
  obtain ⟨failure, hs⟩ := Option.ne_none_iff_exists'.1 hne
  exact ⟨made, hmade, htold, hevaluated, b, hb, failure, hs, hsome,
    (hstopped b hb failure hs).2⟩

end Environment

end ModuleLoader
