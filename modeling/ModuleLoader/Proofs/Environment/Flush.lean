import ModuleLoader.Environment.Operations
import ModuleLoader.Proofs.Completion.Walk

/-!
# What evaluation changes in an environment

A flush of an environment is a flush of its load order, with what came of it written to the journal
and the progress.  Taking account of a retrieval is, on hosts that go on after failures, a move of
the module's record and a flush.  Nothing else of an environment changes in either.
-/

set_option autoImplicit false

namespace ModuleLoader.Environment

/-- The flush of the load order that a flush of the environment is. -/
def orderFlush (env : Environment) : Flush Namespace.Layer :=
  Flush.through env.profile.policy (evaluator env.config.wrapOptions) env.order.pending env.store
    env.layer

/-- Noting failed evaluations adds their modules to the progress, and changes nothing else but the
journal. -/
theorem foldl_noteEvaluationFailure (failures : List EvaluationFailure) (env : Environment) :
    ∃ journal, failures.foldl noteEvaluationFailure env = { env with
      journal
      progress := ⟨env.progress.evaluated, env.progress.failed ++ failures.map (·.module)⟩ } := by
  induction failures generalizing env with
  | nil =>
    refine ⟨env.journal, ?_⟩
    rw [List.map_nil, List.append_nil]
    rfl
  | cons failure failures ih =>
    obtain ⟨journal, h⟩ := ih (env.noteEvaluationFailure failure)
    refine ⟨journal, ?_⟩
    rw [List.foldl_cons, h, List.map_cons, List.append_cons]
    rfl

/-- A flush that is not stopped notes the modules evaluated and those that failed. -/
theorem flush_of_ok (env : Environment) {r : FlushReport} (h : env.orderFlush.outcome = .ok r) :
    env.flush.1 = .ok () ∧ ∃ journal, env.flush.2 = { env with
      journal
      store := env.orderFlush.store
      order := { env.order with cursor := env.order.cursor + env.orderFlush.passed }
      layer := env.orderFlush.state
      progress := ⟨env.progress.evaluated ++ r.evaluated,
        env.progress.failed ++ r.failed.map (·.module)⟩ } := by
  obtain ⟨journal, hfold⟩ := foldl_noteEvaluationFailure r.failed { env with
    store := env.orderFlush.store
    order := { env.order with cursor := env.order.cursor + env.orderFlush.passed }
    layer := env.orderFlush.state }
  have hflush : env.flush = (.ok (), (r.failed.foldl noteEvaluationFailure { env with
      store := env.orderFlush.store
      order := { env.order with cursor := env.order.cursor + env.orderFlush.passed }
      layer := env.orderFlush.state }).noteEvaluated r.evaluated) := by
    unfold orderFlush at h
    simp only [flush, LoadOrder.flush, h]
    rfl
  rw [hflush, hfold]
  exact ⟨rfl, journal, rfl⟩

/-- A flush that is stopped answers with the failure, and its environment is that of the order's
flush. -/
theorem flush_of_error (env : Environment) {failure : EvaluationFailure}
    (h : env.orderFlush.outcome = .error failure) :
    env.flush.1 = .error (.evaluation failure) ∧ ∃ journal, env.flush.2 = { env with
      journal
      store := env.orderFlush.store
      order := { env.order with cursor := env.order.cursor + env.orderFlush.passed }
      layer := env.orderFlush.state
      progress := ⟨env.progress.evaluated, env.progress.failed ++ [failure.module]⟩ } := by
  have hflush : env.flush = (.error (.evaluation failure), { env with
      store := env.orderFlush.store
      order := { env.order with cursor := env.order.cursor + env.orderFlush.passed }
      layer := env.orderFlush.state }.noteEvaluationFailure failure) := by
    unfold orderFlush at h
    simp only [flush, LoadOrder.flush, h]
    rfl
  rw [hflush]
  exact ⟨rfl, _, rfl⟩

/-- A flush changes the store, the cursor, the layer, the journal and the progress, the first three
as the flush of the order does. -/
theorem flush_frame (env : Environment) : ∃ journal progress, env.flush.2 = { env with
    journal, progress
    store := env.orderFlush.store
    order := { env.order with cursor := env.order.cursor + env.orderFlush.passed }
    layer := env.orderFlush.state } := by
  cases h : env.orderFlush.outcome with
  | ok r =>
    obtain ⟨-, journal, hf⟩ := env.flush_of_ok h
    exact ⟨journal, _, hf⟩
  | error failure =>
    obtain ⟨-, journal, hf⟩ := env.flush_of_error h
    exact ⟨journal, _, hf⟩

/-- The environment in which a module's record has taken what its retrieval came to. -/
def noteArrival (env : Environment) (id : String) (result : Except RetrievalFailure String) :
    Environment :=
  match result with
  | .ok code => { env with store := (env.store.advance id (.retrieved code)).2 }
  | .error failure =>
    match env.store.advance id (.failed (.retrieval failure)) with
    | (false, _) => env
    | (true, store) => { env with store }.noteRetrievalFailure id (env.locationOf id) failure

/-- Noting what a retrieval came to advances its module, and changes nothing else but the journal
and the progress. -/
theorem noteArrival_frame (env : Environment) (id : String)
    (result : Except RetrievalFailure String) : ∃ journal progress,
    env.noteArrival id result = { env with
      journal, progress
      store := (env.store.advance id (.ofRetrieval result)).2 } := by
  cases result with
  | ok code => exact ⟨env.journal, env.progress, rfl⟩
  | error failure =>
    simp only [noteArrival, ModuleState.ofRetrieval]
    rcases env.store.advance_cases id (.failed (.retrieval failure)) with h | ⟨record, -, -, h⟩
    · rw [h]
      exact ⟨env.journal, env.progress, rfl⟩
    · rw [h]
      exact ⟨_, _, rfl⟩

/-- A module as a failed one, if its retrieval came to a failure. -/
def lostBy (id : String) : Except RetrievalFailure String → List String
  | .ok _ => []
  | .error _ => [id]

/-- A requested module takes what its retrieval came to, and a failure is noted. -/
theorem noteArrival_of_requested (env : Environment) {id : String} {record : ModuleRecord}
    (hr : env.store.get? id = some record) (hs : record.state = .requested)
    (result : Except RetrievalFailure String) : ∃ journal,
    env.noteArrival id result = { env with
      journal
      store := env.store.set id { record with state := .ofRetrieval result }
      progress := ⟨env.progress.evaluated, env.progress.failed ++ lostBy id result⟩ } := by
  have ha : record.state.allows (.ofRetrieval result) = true := by
    rw [hs]
    cases result <;> rfl
  have hadvance := ModuleStore.advance_of_allows hr ha
  cases result with
  | ok code =>
    simp only [ModuleState.ofRetrieval] at hadvance
    refine ⟨env.journal, ?_⟩
    simp only [noteArrival, hadvance, lostBy, List.append_nil]
    rfl
  | error failure =>
    simp only [ModuleState.ofRetrieval] at hadvance
    refine ⟨env.journal.retrieval id (env.locationOf id) failure, ?_⟩
    simp only [noteArrival, hadvance, noteRetrievalFailure, lostBy]
    rfl

/-- What a retrieval came to stops the loading: a failure that the module's record takes, where
loading does not go on after failures. -/
def stopsAt (env : Environment) (id : String) : Except RetrievalFailure String → Bool
  | .ok _ => false
  | .error failure =>
    (env.store.advance id (.failed (.retrieval failure))).1 && env.profile.policy = .failFast

/-- Unless it stops the loading, taking account of a retrieval is a move of the record and a
flush. -/
theorem complete_of_goesOn {env : Environment} {id : String}
    {result : Except RetrievalFailure String} (h : env.stopsAt id result = false) :
    env.complete id result = (env.noteArrival id result).flush := by
  cases result with
  | ok code => rfl
  | error failure =>
    unfold stopsAt at h
    rcases env.store.advance_cases id (.failed (.retrieval failure)) with ha | ⟨record, -, -, ha⟩
    · simp only [complete, noteArrival, ha]
    · generalize env.store.set id _ = store at ha
      have hpolicy : ({ env with store := store }.noteRetrievalFailure id (env.locationOf id)
          failure).profile.policy = .failForward := by
        show env.profile.policy = .failForward
        cases hp : env.profile.policy with
        | failForward => rfl
        | failFast => simp [ha, hp] at h
      simp only [complete, noteArrival, ha, hpolicy]

/-- Where a retrieval stops the loading it is answered as an error, and no flush follows. -/
theorem complete_of_stops {env : Environment} {id : String}
    {result : Except RetrievalFailure String} (h : env.stopsAt id result = true) :
    ∃ failure, env.complete id result =
      (.error (.retrieval id (env.locationOf id) failure), env.noteArrival id result) := by
  cases result with
  | ok code => cases h
  | error failure =>
    refine ⟨failure, ?_⟩
    unfold stopsAt at h
    rcases env.store.advance_cases id (.failed (.retrieval failure)) with ha | ⟨record, -, -, ha⟩
    · simp [ha] at h
    · generalize env.store.set id _ = store at ha
      have hpolicy : ({ env with store := store }.noteRetrievalFailure id (env.locationOf id)
          failure).profile.policy = .failFast := by
        show env.profile.policy = .failFast
        simpa [ha] using h
      simp only [complete, noteArrival, ha, hpolicy]

/-- Where loading goes on after failures, no retrieval stops it. -/
theorem complete_of_failForward {env : Environment} (h : env.profile.policy = .failForward)
    (id : String) (result : Except RetrievalFailure String) :
    env.complete id result = (env.noteArrival id result).flush := by
  apply complete_of_goesOn
  cases result with
  | ok code => rfl
  | error failure => simp [stopsAt, h]

/-- Taking account of a retrieval is a move of the record, and a flush unless loading stops. -/
theorem complete_cases (env : Environment) (id : String) (result : Except RetrievalFailure String) :
    (env.complete id result).2 = (env.noteArrival id result).flush.2 ∨
      (env.complete id result).2 = env.noteArrival id result := by
  cases h : env.stopsAt id result with
  | false =>
    left
    rw [complete_of_goesOn h]
  | true =>
    obtain ⟨failure, hc⟩ := complete_of_stops h
    right
    rw [hc]

/-- Taking account of a retrieval moves none and announces no module. -/
theorem complete_frame (env : Environment) (id : String)
    (result : Except RetrievalFailure String) :
    ∃ store order layer journal progress, (env.complete id result).2 =
      { env with store, order, layer, journal, progress } := by
  obtain ⟨journal, progress, hn⟩ := env.noteArrival_frame id result
  rcases env.complete_cases id result with h | h
  · obtain ⟨journal', progress', hf⟩ := (env.noteArrival id result).flush_frame
    rw [h, hf, hn]
    exact ⟨_, _, _, _, _, rfl⟩
  · rw [h, hn]
    exact ⟨_, _, _, _, _, rfl⟩

/-- Taking account of a retrieval leaves the transport as it is. -/
theorem transport_complete (env : Environment) (id : String)
    (result : Except RetrievalFailure String) :
    (env.complete id result).2.transport = env.transport := by
  obtain ⟨store, order, layer, journal, progress, h⟩ := env.complete_frame id result
  rw [h]

/-- The store after a flush follows the one before. -/
theorem follows_flush (env : Environment) : env.flush.2.store.Follows env.store := by
  obtain ⟨journal, progress, h⟩ := env.flush_frame
  rw [h]
  exact (Flush.through_standing env.order.pending env.store env.layer).2.1

/-- Taking account of a retrieval moves the module's record, and may settle retrieved ones. -/
theorem follows_complete (env : Environment) (id : String)
    (result : Except RetrievalFailure String) :
    (env.complete id result).2.store.Follows (env.store.advance id (.ofRetrieval result)).2 := by
  obtain ⟨journal, progress, hn⟩ := env.noteArrival_frame id result
  have hstore : (env.noteArrival id result).store =
      (env.store.advance id (.ofRetrieval result)).2 := by rw [hn]
  rcases env.complete_cases id result with h | h
  · rw [h, ← hstore]
    exact follows_flush _
  · rw [h, ← hstore]
    exact .refl _

/-- Handing out a report empties the progress and changes nothing else but the journal. -/
theorem report_frame (env : Environment) : ∃ journal,
    env.report = (env.reportNow, { env with journal, progress := ⟨[], []⟩ }) := by
  cases h : env.reportNow.isComplete with
  | true =>
    refine ⟨(env.journal.announce .info "load settled"), ?_⟩
    simp only [report, h, if_true]
    rfl
  | false =>
    refine ⟨env.journal, ?_⟩
    simp only [report, h, Bool.false_eq_true, if_false]

end ModuleLoader.Environment
