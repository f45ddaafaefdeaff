import ModuleLoader.Proofs.Environment.Fixpoint

/-!
# Operations that take notes

Beside every operation stands one that does the same and takes notes: which modules are evaluated in
one go, and which retrievals are started, each with the state of its module's record at that time.
Before it starts a retrieval it asks once more for an event loop, so it can also be told from the
notes that no call is refused after something was done.  Main statements: `record_outcome`, taking
notes changes no answer and no environment, and `Assembles.loadWith`, what holds of the parts of
operations holds of the operations.
-/

set_option autoImplicit false

namespace ModuleLoader

/-! ## Notes -/

/-- An evaluator that also notes the modules it has evaluated. -/
def Evaluator.noting {σ : Type} (evaluate : Evaluator σ) : Evaluator (σ × List String) :=
  fun record code s =>
    match evaluate record code s.1 with
    | (.ok (), state) => (.ok (), state, s.2 ++ [record.id])
    | (.error failure, state) => (.error failure, state, s.2)

/-- What was evaluated in one go. -/
structure Batch where
  /-- The modules evaluated, in order. -/
  evaluated : List String
  /-- The failure that stopped the flush, if one did. -/
  stopped : Option EvaluationFailure

/-- A retrieval that is started, with the state of its module's record at that time. -/
structure Start where
  spec : ModuleSpec
  state : Option ModuleState
deriving DecidableEq, Repr

namespace Start

/-- Whether the module has come to an end already. -/
def isLate (s : Start) : Bool := s.state.any (·.isTerminal)

/-- The retrieval, as the schedule knows it. -/
def retrieval (s : Start) : Retrieval := ⟨s.spec.id, s.spec.location⟩

end Start

/-- One thing noted of an operation. -/
inductive Note where
  | evaluated (batch : Batch)
  | started (start : Start)

namespace Note

/-- The batch that a note is of. -/
def batch? : Note → Option Batch
  | .evaluated batch => some batch
  | .started _ => none

/-- The start of a retrieval that a note is of. -/
def start? : Note → Option Start
  | .evaluated _ => none
  | .started start => some start

end Note

/-- What an operation answers and leaves, with the notes taken on the way. -/
structure Noted (α : Type) where
  outcome : Except LoaderError α × Environment
  notes : List Note

namespace Noted

/-- The batches that were evaluated, in order. -/
def batches {α : Type} (r : Noted α) : List Batch := r.notes.filterMap Note.batch?

/-- The retrievals that were started, in order. -/
def starts {α : Type} (r : Noted α) : List Start := r.notes.filterMap Note.start?

/-- An outcome of which nothing is noted. -/
def silent {α : Type} (outcome : Except LoaderError α × Environment) : Noted α := ⟨outcome, []⟩

/-- What one operation is followed by, unless it fails, with the notes of both. -/
def andThen (r : Noted Unit) (next : Environment → Noted Unit) : Noted Unit :=
  match r.outcome with
  | (.error _, _) => r
  | (.ok (), env) => ⟨(next env).outcome, r.notes ++ (next env).notes⟩

/-- An operation that hands out no report. -/
def unreported (r : Noted Unit) : Noted (Option LoadReport) :=
  ⟨Environment.unreported r.outcome, r.notes⟩

/-- An operation after which the report is handed out, unless it fails. -/
def reporting (r : Noted Unit) : Noted (Option LoadReport) :=
  match r.outcome with
  | (.error e, env) => ⟨(.error e, env), r.notes⟩
  | (.ok (), env) => ⟨(.ok (some env.report.1), env.report.2), r.notes⟩

/-- Taking notes does not change what one operation is followed by. -/
theorem outcome_andThen (r : Noted Unit) (next : Environment → Noted Unit) :
    (r.andThen next).outcome = ModuleLoader.andThen r.outcome fun env => (next env).outcome := by
  unfold andThen ModuleLoader.andThen
  rcases hr : r.outcome with ⟨e | u, env⟩
  · exact hr
  · rfl

/-- Notes that are followed by others are evaluations before evaluations. -/
theorem batches_append {α : Type} (outcome : Except LoaderError α × Environment)
    (notes more : List Note) :
    (⟨outcome, notes ++ more⟩ : Noted α).batches =
      notes.filterMap Note.batch? ++ more.filterMap Note.batch? := List.filterMap_append

/-- Notes that are followed by others are starts before starts. -/
theorem starts_append {α : Type} (outcome : Except LoaderError α × Environment)
    (notes more : List Note) :
    (⟨outcome, notes ++ more⟩ : Noted α).starts =
      notes.filterMap Note.start? ++ more.filterMap Note.start? := List.filterMap_append

end Noted

/-! ## Operations that take notes -/

namespace Environment

open Noted (silent)

/-- What a flush evaluates, as the evaluator itself notes it. -/
def flushBatch (env : Environment) : Batch :=
  let f := Flush.through env.profile.policy (evaluator env.config.wrapOptions).noting
    env.order.pending env.store (env.layer, [])
  match f.outcome with
  | .ok _ => ⟨f.state.2, none⟩
  | .error failure => ⟨f.state.2, some failure⟩

/-- The start of a module's retrieval, with the state of the module's record. -/
def startOf (env : Environment) (spec : ModuleSpec) : Start := ⟨spec, env.store.state? spec.id⟩

/-- The environment in which a module has a record and its place at the end of the order. -/
def registered (env : Environment) (path : String) : Environment := { env with
  store := (env.store.ensure (env.specFor path)).2
  order := env.order.enqueue (env.specFor path).id }

/-- The environment in which the modules held back are let go. -/
def released (env : Environment) : Environment := { env with
  documentWrite := false
  pendingWrites := [] }

/-- Evaluate what is ready, as one batch. -/
def recordFlush (env : Environment) : Noted Unit := ⟨env.flush, [.evaluated env.flushBatch]⟩

/-- Take account of a retrieval that has finished; where it ends the loading nothing is evaluated. -/
def recordComplete (env : Environment) (id : String) (result : Except RetrievalFailure String) :
    Noted Unit :=
  if env.stopsAt id result then silent (env.complete id result)
  else (env.noteArrival id result).recordFlush

/-- Start a module's retrieval, and ask once more for the event loop that it may want. -/
def recordStart (env : Environment) (caller : Caller) (spec : ModuleSpec) : Noted Unit :=
  if env.canStart caller then
    match env.transport with
    | .concurrent _ => ⟨env.start spec, [.started (env.startOf spec)]⟩
    | .serial medium =>
      let r := { env with transport := .serial (medium.lookUp spec.location).2 }.recordComplete
        spec.id (medium.lookUp spec.location).1
      ⟨r.outcome, .started (env.startOf spec) :: r.notes⟩
    | .none => silent (env.start spec)
  else silent (.error .noEventLoop, env)

/-- Take account of one arrival. -/
def recordReceive (env : Environment) (arrival : Arrival) (rest : List Arrival) : Noted Unit :=
  { env with
    schedule := { env.schedule with arrived := rest }
    inFlight := env.inFlight - 1 }.recordComplete arrival.id arrival.result

/-- Take account of some arrivals in turn, up to the first error. -/
def recordReceiveAll (env : Environment) : List Arrival → Noted Unit
  | [] => silent (.ok (), env)
  | arrival :: rest => (env.recordReceive arrival rest).andThen (·.recordReceiveAll rest)

/-- Take account of everything that has arrived. -/
def recordDrain (env : Environment) : Noted Unit := env.recordReceiveAll env.schedule.arrived

/-- Start the retrievals of some modules in turn, up to the first error. -/
def recordStartAll (env : Environment) (caller : Caller) : List ModuleSpec → Noted Unit
  | [] => silent (.ok (), env)
  | spec :: specs => (env.recordStart caller spec).andThen (·.recordStartAll caller specs)

/-- End the phase in which modules are held back. -/
def recordDocumentReady (env : Environment) (caller : Caller) : Noted Unit :=
  if !env.documentWrite then silent (.ok (), env)
  else if !env.canStart caller then silent (.error .noEventLoop, env)
  else (env.released.recordStartAll caller env.pendingWrites).andThen recordDrain

/-- Register a new module at the end of the order, and hold it back or start its retrieval. -/
def recordIntroduce (env : Environment) (caller : Caller) (spec : ModuleSpec) : Noted Unit :=
  let env := if env.config.debug then env.announce .info ("load: " ++ spec.id) else env
  let env := { env with order := env.order.enqueue spec.id }
  if env.documentWrite then silent (.ok (), { env with pendingWrites := env.pendingWrites ++ [spec] })
  else env.recordStart caller spec

/-- Register the modules of a list that are not known yet, up to the first error. -/
def recordRegister (env : Environment) (caller : Caller) : List String → Noted Unit
  | [] => silent (.ok (), env)
  | path :: paths =>
    let spec := env.specFor path
    match env.store.ensure spec with
    | (false, _) => env.recordRegister caller paths
    | (true, store) =>
      ({ env with store }.recordIntroduce caller spec).andThen (·.recordRegister caller paths)

/-- Load modules on a host that retrieves. -/
def recordRetrieveAll (env : Environment) (caller : Caller) (paths : List String) : Noted Unit :=
  if !env.documentWrite && !env.canStart caller then silent (.error .noEventLoop, env)
  else (env.recordRegister caller paths).andThen recordDrain

/-- Load every module of a list that is not known yet, in order. -/
def recordLoadWith (env : Environment) (caller : Caller) (paths : List String) (atOnce : Bool) :
    Noted Unit :=
  match env.profile.behavior with
  | .unsupported => silent (.error (.unsupported env.host.name "load"), env)
  | .markOnly | .alwaysLoaded => silent (.ok (), paths.foldl setLoaded env)
  | .retrieve =>
    if atOnce && env.documentWrite then
      (env.recordDocumentReady caller).andThen (·.recordRetrieveAll caller paths)
    else env.recordRetrieveAll caller paths

/-- Evaluate given code as a module; if it comes to an end, the flush that follows is a batch of its
own. -/
def recordEvalLoad (env : Environment) (path : String) (hasSourceMap : Bool) (code : String) :
    Noted Unit where
  outcome := env.evalLoad path hasSourceMap code
  notes :=
    if !env.acceptsCode then []
    else
      match env.outcomeOf path hasSourceMap code with
      | .error _ => []
      | .ok () =>
        [.evaluated ⟨[path], none⟩, .evaluated { env with
          layer := env.layerAfter path hasSourceMap code
          store := env.store.force path .evaluated }.flushBatch]

/-! ## Notes change nothing -/

/-- Taking notes changes nothing of taking account of a retrieval. -/
theorem recordComplete_outcome (env : Environment) (id : String)
    (result : Except RetrievalFailure String) :
    (env.recordComplete id result).outcome = env.complete id result := by
  unfold recordComplete
  cases hs : env.stopsAt id result with
  | false => exact (complete_of_goesOn hs).symm
  | true => rfl

/-- Taking account of one arrival is recorded as it happens. -/
theorem recordReceive_outcome (env : Environment) (arrival : Arrival) (rest : List Arrival) :
    (env.recordReceive arrival rest).outcome = env.receive arrival rest :=
  recordComplete_outcome _ arrival.id arrival.result

/-- Waiting for all retrievals, one arrival after the other. -/
def recordSettleAll (env : Environment) : Noted Unit :=
  if env.inFlight = 0 then silent (.ok (), env)
  else
    match _h : env.await.schedule.arrived with
    | [] => silent (.ok (), env.await)
    | arrival :: rest =>
      match _hr : (env.await.recordReceive arrival rest).outcome with
      | (.error _, _) => env.await.recordReceive arrival rest
      | (.ok (), next) => ⟨next.recordSettleAll.outcome,
          (env.await.recordReceive arrival rest).notes ++ next.recordSettleAll.notes⟩
termination_by env.schedule.work
decreasing_by
  all_goals
    have h1 := env.await.work_receive_lt _h
    have h2 := env.work_await_le
    rw [recordReceive_outcome] at _hr
    rw [_hr] at h1
    exact Nat.lt_of_lt_of_le h1 h2

/-- Do one thing and take notes. -/
def record (env : Environment) : Action → Noted (Option LoadReport)
  | .load caller paths => (env.recordLoadWith caller paths env.config.forceAsync).unreported
  | .loadWith caller paths atOnce => (env.recordLoadWith caller paths atOnce).unreported
  | .documentReady caller => (env.recordDocumentReady caller).unreported
  | .evalLoad path hasSourceMap code => (env.recordEvalLoad path hasSourceMap code).unreported
  | .settle => (env.recordDrain.andThen recordSettleAll).reporting
  | action => silent (env.perform action)

/-- The notes of a run of actions. -/
def notes (env : Environment) : List Action → List Note
  | [] => []
  | action :: actions => (env.record action).notes ++ (env.perform action).2.notes actions

/-- What a run of actions evaluates, batch by batch. -/
def history (env : Environment) (actions : List Action) : List Batch :=
  (env.notes actions).filterMap Note.batch?

/-- The retrievals that a run of actions starts, in order. -/
def started (env : Environment) (actions : List Action) : List Start :=
  (env.notes actions).filterMap Note.start?

/-- The batches of a run are those of its first action and of the rest. -/
theorem history_cons (env : Environment) (action : Action) (actions : List Action) :
    env.history (action :: actions) =
      (env.record action).batches ++ (env.perform action).2.history actions :=
  List.filterMap_append

/-- The retrievals of a run are those of its first action and of the rest. -/
theorem started_cons (env : Environment) (action : Action) (actions : List Action) :
    env.started (action :: actions) =
      (env.record action).starts ++ (env.perform action).2.started actions :=
  List.filterMap_append

variable {env env' : Environment}

/-- Two environments that hold modules back alike and retrieve in the same way. -/
structure Guarded (env env' : Environment) : Prop where
  documentWrite : env'.documentWrite = env.documentWrite
  concurrent : env'.transport.isConcurrent = env.transport.isConcurrent

/-- Retrievals can be started from the same places. -/
theorem Guarded.canStart (h : env.Guarded env') (caller : Caller) :
    env'.canStart caller = env.canStart caller := by
  rw [Environment.canStart, Environment.canStart, h.concurrent]

/-- Starting a retrieval does not change where others can be started. -/
theorem guarded_start (env : Environment) (spec : ModuleSpec) : env.Guarded (env.start spec).2 := by
  unfold start
  split
  · exact ⟨rfl, rfl⟩
  · rename_i medium ht
    obtain ⟨store, order, layer, journal, progress, hframe⟩ := complete_frame
      { env with transport := .serial (medium.lookUp spec.location).2 } spec.id
      (medium.lookUp spec.location).1
    simp only [hframe]
    exact ⟨rfl, by rw [ht]; rfl⟩
  · exact ⟨rfl, rfl⟩

/-- Registering a module does not change where retrievals can be started. -/
theorem guarded_introduce (env : Environment) (spec : ModuleSpec) :
    env.Guarded (env.introduce spec).2 := by
  obtain ⟨journal, -, hintroduce⟩ := env.introduce_eq spec
  rw [hintroduce]
  split
  · exact ⟨rfl, rfl⟩
  · obtain ⟨hheld, hkind⟩ :=
      { env with journal, order := env.order.enqueue spec.id }.guarded_start spec
    exact ⟨hheld, hkind⟩

/-- Two operations that go on alike from where the first has left off do the same. -/
theorem andThen_congr {outcome : Except LoaderError Unit × Environment}
    {next next' : Environment → Except LoaderError Unit × Environment}
    (h : next outcome.2 = next' outcome.2) : andThen outcome next = andThen outcome next' := by
  rcases outcome with ⟨e | u, env'⟩
  · rfl
  · exact h

/-- Where retrievals can be started, one is started as it would be without notes. -/
theorem recordStart_outcome {caller : Caller} (h : env.canStart caller = true)
    (spec : ModuleSpec) : (env.recordStart caller spec).outcome = env.start spec := by
  rw [recordStart, if_pos h]
  cases ht : env.transport with
  | concurrent medium => rfl
  | serial medium =>
    have hcomplete := recordComplete_outcome
      { env with transport := .serial (medium.lookUp spec.location).2 } spec.id
      (medium.lookUp spec.location).1
    simp only [start, ht]
    exact hcomplete
  | none => rfl

/-- Taking notes changes nothing of starting retrievals, where this can be done. -/
theorem recordStartAll_outcome {caller : Caller} (h : env.canStart caller = true)
    (specs : List ModuleSpec) :
    (env.recordStartAll caller specs).outcome = env.startAll specs := by
  induction specs generalizing env with
  | nil => rfl
  | cons spec specs ih =>
    rw [recordStartAll, Noted.outcome_andThen, recordStart_outcome h, startAll_cons]
    exact andThen_congr (ih (((env.guarded_start spec).canStart caller).trans h))

/-- Taking notes changes nothing of taking account of arrivals. -/
theorem recordReceiveAll_outcome (env : Environment) (arrivals : List Arrival) :
    (env.recordReceiveAll arrivals).outcome = env.receiveAll arrivals := by
  induction arrivals generalizing env with
  | nil => rfl
  | cons arrival rest ih =>
    rw [recordReceiveAll, Noted.outcome_andThen, recordReceive_outcome, receiveAll_cons]
    exact andThen_congr (ih _)

/-- Taking notes changes nothing of taking account of everything that has arrived. -/
theorem recordDrain_outcome (env : Environment) : env.recordDrain.outcome = env.drain :=
  env.recordReceiveAll_outcome env.schedule.arrived

/-- Taking notes changes nothing of telling the document ready. -/
theorem recordDocumentReady_outcome (env : Environment) (caller : Caller) :
    (env.recordDocumentReady caller).outcome = env.documentReady caller := by
  cases hd : env.documentWrite with
  | false => simp [recordDocumentReady, documentReady, hd, silent]
  | true =>
    cases hc : env.canStart caller with
    | false => simp [recordDocumentReady, documentReady, hd, hc, silent]
    | true =>
      have hall := @recordStartAll_outcome env.released caller hc env.pendingWrites
      simp only [recordDocumentReady, hd, hc, Bool.not_true, Bool.false_eq_true, if_false]
      rw [documentReady_of_held hd hc, Noted.outcome_andThen, hall]
      exact andThen_congr (recordDrain_outcome _)

/-- A module that is held back is not started, so no event loop is asked for. -/
theorem recordIntroduce_outcome {caller : Caller}
    (h : env.documentWrite = false → env.canStart caller = true) (spec : ModuleSpec) :
    (env.recordIntroduce caller spec).outcome = env.introduce spec := by
  have hbody : ∀ env' : Environment, env.Guarded env' →
      (if env'.documentWrite then
        silent (.ok (), { env' with pendingWrites := env'.pendingWrites ++ [spec] })
      else env'.recordStart caller spec).outcome =
      if env'.documentWrite then
        (.ok (), { env' with pendingWrites := env'.pendingWrites ++ [spec] })
      else env'.start spec := by
    intro env' hg
    split
    · rfl
    · rename_i hd
      rw [hg.documentWrite, Bool.not_eq_true] at hd
      exact recordStart_outcome ((hg.canStart caller).trans (h hd)) spec
  unfold recordIntroduce introduce
  cases env.config.debug with
  | false => exact hbody _ ⟨rfl, rfl⟩
  | true => exact hbody _ ⟨rfl, rfl⟩

/-- A module that has a record is passed over. -/
theorem recordRegister_cons_known (env : Environment) (caller : Caller) {path : String}
    (paths : List String) (h : env.store.get? (env.specFor path).id ≠ none) :
    env.recordRegister caller (path :: paths) = env.recordRegister caller paths := by
  obtain ⟨record, hr⟩ := Option.ne_none_iff_exists'.1 h
  have hensure : env.store.ensure (env.specFor path) = (false, env.store) := by
    simp [ModuleStore.ensure, hr]
  simp only [recordRegister, hensure]

/-- A module that has no record is introduced before the rest. -/
theorem recordRegister_cons_new (env : Environment) (caller : Caller) {path : String}
    (paths : List String) (h : env.store.get? (env.specFor path).id = none) :
    env.recordRegister caller (path :: paths) =
      ({ env with store := (env.store.ensure (env.specFor path)).2 }.recordIntroduce caller
        (env.specFor path)).andThen (·.recordRegister caller paths) := by
  have hensure : env.store.ensure (env.specFor path) =
      (true, (env.store.ensure (env.specFor path)).2) := by
    simp [ModuleStore.ensure, h]
  rw [recordRegister, hensure]

/-- Taking notes changes nothing of registering modules, where they are held back or can be
retrieved. -/
theorem recordRegister_outcome {caller : Caller}
    (h : env.documentWrite = false → env.canStart caller = true) (paths : List String) :
    (env.recordRegister caller paths).outcome = env.register paths := by
  induction paths generalizing env with
  | nil => rfl
  | cons path paths ih =>
    by_cases hnew : env.store.get? (env.specFor path).id = none
    · have hintroduce := @recordIntroduce_outcome
        { env with store := (env.store.ensure (env.specFor path)).2 } caller h (env.specFor path)
      have hguarded := guarded_introduce
        { env with store := (env.store.ensure (env.specFor path)).2 } (env.specFor path)
      rw [register_cons_new env paths hnew, recordRegister_cons_new env caller paths hnew,
        Noted.outcome_andThen, hintroduce]
      refine andThen_congr (ih fun hd => ?_)
      rw [hguarded.documentWrite] at hd
      exact (hguarded.canStart caller).trans (h hd)
    · rw [register_cons_known env paths hnew, recordRegister_cons_known env caller paths hnew]
      exact ih h

/-- Taking notes changes nothing of loading on a host that retrieves. -/
theorem recordRetrieveAll_outcome (env : Environment) (caller : Caller) (paths : List String) :
    (env.recordRetrieveAll caller paths).outcome = env.retrieveAll caller paths := by
  by_cases hg : (!env.documentWrite && !env.canStart caller) = true
  · rw [recordRetrieveAll, retrieveAll, if_pos hg, if_pos hg]
    rfl
  · have hc : env.documentWrite = false → env.canStart caller = true := by
      intro hd
      simpa [hd] using hg
    rw [recordRetrieveAll, retrieveAll, if_neg hg, if_neg hg, Noted.outcome_andThen,
      recordRegister_outcome hc]
    exact andThen_congr (recordDrain_outcome _)

/-- Taking notes changes nothing of loading. -/
theorem recordLoadWith_outcome (env : Environment) (caller : Caller) (paths : List String)
    (atOnce : Bool) :
    (env.recordLoadWith caller paths atOnce).outcome = env.loadWith caller paths atOnce := by
  unfold recordLoadWith loadWith
  cases env.profile.behavior with
  | unsupported => rfl
  | markOnly => rfl
  | alwaysLoaded => rfl
  | retrieve =>
    simp only
    split
    · rw [Noted.outcome_andThen, recordDocumentReady_outcome]
      exact andThen_congr (recordRetrieveAll_outcome _ caller paths)
    · exact env.recordRetrieveAll_outcome caller paths

/-- Where nothing arrives any more, waiting is over. -/
theorem settleAll_of_none (hne : env.inFlight ≠ 0) (harr : env.await.schedule.arrived = []) :
    env.settleAll = (.ok (), env.await) := by
  rw [settleAll, if_neg hne]
  split
  · rfl
  · rename_i harr'
    rw [harr] at harr'
    cases harr'

/-- Account is taken of what has arrived before waiting goes on. -/
theorem settleAll_of_arrived (hne : env.inFlight ≠ 0) {arrival : Arrival} {rest : List Arrival}
    (harr : env.await.schedule.arrived = arrival :: rest) :
    env.settleAll = andThen (env.await.receive arrival rest) settleAll := by
  rw [settleAll, if_neg hne]
  split
  · rename_i harr'
    rw [harr] at harr'
    cases harr'
  · rename_i harr'
    rw [harr] at harr'
    cases harr'
    split <;> rename_i hr <;> rw [hr, andThen]

/-- Taking notes changes nothing of waiting for all retrievals. -/
theorem recordSettleAll_outcome (env : Environment) :
    env.recordSettleAll.outcome = env.settleAll := by
  fun_induction recordSettleAll env with
  | case1 env hzero => rw [settleAll, if_pos hzero, silent]
  | case2 env hne harr => rw [settleAll_of_none hne harr, silent]
  | case3 env hne arrival rest harr e env' hr =>
    rw [recordReceive_outcome] at hr ⊢
    rw [settleAll_of_arrived hne harr, hr]
    rfl
  | case4 env hne arrival rest harr env' hr ih =>
    rw [recordReceive_outcome] at hr
    rw [settleAll_of_arrived hne harr, hr, ih]
    rfl

/-- What is recorded of settling, before the report, is what settling does. -/
theorem recordSettling_outcome (env : Environment) :
    (env.recordDrain.andThen recordSettleAll).outcome = env.settling := by
  rw [Noted.outcome_andThen, recordDrain_outcome]
  exact andThen_congr (recordSettleAll_outcome _)

/-- Taking notes changes no answer and no environment, although every start of a retrieval asks once
more for an event loop. -/
theorem record_outcome (env : Environment) (action : Action) :
    (env.record action).outcome = env.perform action := by
  cases action with
  | load caller paths =>
    rw [record, Noted.unreported, recordLoadWith_outcome, perform, load]
  | loadWith caller paths atOnce =>
    rw [record, Noted.unreported, recordLoadWith_outcome, perform]
  | documentReady caller =>
    rw [record, Noted.unreported, recordDocumentReady_outcome, perform]
  | settle =>
    rw [record, Noted.reporting, recordSettling_outcome, perform]
    rcases hs : env.settling with ⟨e | u, env'⟩
    · rw [settle_of_error hs]
      rfl
    · rw [settle_of_ok hs]
      obtain ⟨journal, hreport⟩ := env'.report_frame
      simp only [hreport]
      rfl
  | setLoaded | evalLoad | turn | rouse | supply => rfl

/-! ## Parts of operations -/

/-- A relation of environments to recorded operations that holds of all parts of operations, save
letting go what is held back, and of parts that follow each other. -/
structure Assembles (R : Environment → Noted Unit → Prop) : Prop where
  nothing : ∀ env : Environment, R env (silent (.ok (), env))
  /-- A refusal names no module. -/
  refused : ∀ (env : Environment) {e : LoaderError}, e.module? = none → R env (silent (.error e, env))
  announce : ∀ (env : Environment) (level : Level) (text : String),
    R env (silent (.ok (), env.announce level text))
  register : ∀ (env : Environment) (path : String), env.store.get? (env.specFor path).id = none →
    R env (silent (.ok (), env.registered path))
  hold : ∀ (env : Environment) (spec : ModuleSpec), env.documentWrite = true →
    R env (silent (.ok (), { env with pendingWrites := env.pendingWrites ++ [spec] }))
  setLoaded : ∀ (env : Environment) (id : String), R env (silent (.ok (), env.setLoaded id))
  start : ∀ (env : Environment) (caller : Caller) (spec : ModuleSpec),
    R env (env.recordStart caller spec)
  receive : ∀ {env : Environment} {arrival : Arrival} {rest : List Arrival},
    env.schedule.arrived = arrival :: rest → R env (env.recordReceive arrival rest)
  await : ∀ env : Environment, R env (silent (.ok (), env.await))
  trans : ∀ {env mid : Environment} {notes : List Note} {r : Noted Unit},
    R env ⟨(.ok (), mid), notes⟩ → R mid r → R env ⟨r.outcome, notes ++ r.notes⟩

namespace Assembles

variable {R : Environment → Noted Unit → Prop}

/-- An operation after something of which nothing is noted. -/
theorem after (h : Assembles R) {env mid : Environment} {r : Noted Unit}
    (hfirst : R env (silent (.ok (), mid))) (hnext : R mid r) : R env r := h.trans hfirst hnext

/-- An operation after another one, unless that fails. -/
theorem andThen (h : Assembles R) {env : Environment} {r : Noted Unit}
    {next : Environment → Noted Unit} (hfirst : R env r)
    (hnext : ∀ env', r.outcome = (.ok (), env') → R env' (next env')) : R env (r.andThen next) := by
  obtain ⟨⟨e | u, env'⟩, notes⟩ := r
  · exact hfirst
  · exact h.trans hfirst (hnext env' rfl)

/-- Starting modules is starting each of them. -/
theorem startAll (h : Assembles R) (env : Environment) (caller : Caller)
    (specs : List ModuleSpec) : R env (env.recordStartAll caller specs) := by
  induction specs generalizing env with
  | nil => exact h.nothing env
  | cons spec specs ih => exact h.andThen (h.start env caller spec) fun env' _ => ih env'

/-- Taking account of all that has arrived is taking account of each. -/
theorem receiveAll (h : Assembles R) {env : Environment} {arrivals : List Arrival}
    (harrived : env.schedule.arrived = arrivals) : R env (env.recordReceiveAll arrivals) := by
  induction arrivals generalizing env with
  | nil => exact h.nothing env
  | cons arrival rest ih =>
    refine h.andThen (h.receive harrived) fun env' houtcome => ih ?_
    rw [recordReceive_outcome] at houtcome
    have hsnd : (env.receive arrival rest).2 = env' := by rw [houtcome]
    rw [← hsnd, Environment.receive, schedule_complete]

/-- The relation holds of taking account of everything that has arrived. -/
theorem drain (h : Assembles R) (env : Environment) : R env env.recordDrain := h.receiveAll rfl

/-- The relation holds of telling the document ready. -/
theorem documentReady (h : Assembles R)
    (hrelease : ∀ env : Environment, R env (silent (.ok (), env.released))) (env : Environment)
    (caller : Caller) : R env (env.recordDocumentReady caller) := by
  unfold recordDocumentReady
  split
  · exact h.nothing env
  · split
    · exact h.refused env rfl
    · exact h.after (hrelease env)
        (h.andThen (h.startAll env.released caller env.pendingWrites) fun env' _ => h.drain env')

/-- A new module is registered, which may be announced, and then held back or started. -/
theorem introduce (h : Assembles R) (env : Environment) (caller : Caller) (path : String)
    (new : env.store.get? (env.specFor path).id = none) :
    R env ({ env with store := (env.store.ensure (env.specFor path)).2 }.recordIntroduce caller
      (env.specFor path)) := by
  have hbody : ∀ e : Environment, R e (if e.documentWrite then
      silent (.ok (), { e with pendingWrites := e.pendingWrites ++ [env.specFor path] })
      else e.recordStart caller (env.specFor path)) := by
    intro e
    split
    · rename_i hd
      exact h.hold e _ hd
    · exact h.start e caller _
  refine h.after (h.register env path new) ?_
  unfold recordIntroduce
  cases env.config.debug with
  | false => exact hbody _
  | true =>
    exact h.after (h.announce (env.registered path) .info ("load: " ++ (env.specFor path).id))
      (hbody _)

/-- The relation holds of registering modules. -/
theorem registerAll (h : Assembles R) (env : Environment) (caller : Caller)
    (paths : List String) : R env (env.recordRegister caller paths) := by
  induction paths generalizing env with
  | nil => exact h.nothing env
  | cons path paths ih =>
    by_cases hnew : env.store.get? (env.specFor path).id = none
    · rw [recordRegister_cons_new env caller paths hnew]
      exact h.andThen (h.introduce env caller path hnew) fun env' _ => ih env'
    · rw [recordRegister_cons_known env caller paths hnew]
      exact ih env

/-- The relation holds of loading on a host that retrieves. -/
theorem retrieveAll (h : Assembles R) (env : Environment) (caller : Caller)
    (paths : List String) : R env (env.recordRetrieveAll caller paths) := by
  unfold recordRetrieveAll
  split
  · exact h.refused env rfl
  · exact h.andThen (h.registerAll env caller paths) fun env' _ => h.drain env'

/-- The relation holds of taking modules as evaluated. -/
theorem setAllLoaded (h : Assembles R) (env : Environment) (ids : List String) :
    R env (silent (.ok (), ids.foldl Environment.setLoaded env)) := by
  induction ids generalizing env with
  | nil => exact h.nothing env
  | cons id ids ih => exact h.after (h.setLoaded env id) (ih (env.setLoaded id))

/-- What holds of all parts of loading holds of loading. -/
theorem loadWith (h : Assembles R)
    (hrelease : ∀ env : Environment, R env (silent (.ok (), env.released))) (env : Environment)
    (caller : Caller) (paths : List String) (atOnce : Bool) :
    R env (env.recordLoadWith caller paths atOnce) := by
  unfold recordLoadWith
  split
  · exact h.refused env rfl
  · exact h.setAllLoaded env paths
  · exact h.setAllLoaded env paths
  · split
    · exact h.andThen (h.documentReady hrelease env caller) fun env' _ =>
        h.retrieveAll env' caller paths
    · exact h.retrieveAll env caller paths

/-- Waiting for all retrievals takes account of one arrival after the other. -/
theorem settleAll (h : Assembles R) (env : Environment) : R env env.recordSettleAll := by
  fun_induction recordSettleAll env with
  | case1 env hzero => exact h.nothing env
  | case2 env hne harr => exact h.await env
  | case3 env hne arrival rest harr e env' hr => exact h.after (h.await env) (h.receive harr)
  | case4 env hne arrival rest harr env' hr ih =>
    have hreceive := h.receive harr
    refine h.after (h.await env) (h.trans ?_ ih)
    rw [← hr]
    exact hreceive

/-- The relation holds of settling. -/
theorem settling (h : Assembles R) (env : Environment) :
    R env (env.recordDrain.andThen recordSettleAll) :=
  h.andThen (h.drain env) fun env' _ => h.settleAll env'

end Assembles

end Environment

end ModuleLoader
