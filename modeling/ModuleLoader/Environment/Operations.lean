import ModuleLoader.Environment.Basic

/-!
# Operations of an environment

Loading modules by their paths, ending the phase in which they are held back, evaluating given code
as a module, and waiting for what is under way.  Every operation answers with its outcome and the
environment as it left it; after an error the environment is what had come about until then.
-/

set_option autoImplicit false

namespace ModuleLoader

/-- Where an operation is called from. -/
inductive Caller where
  | insideEventLoop
  | outsideEventLoop
deriving DecidableEq, Repr

/-- What happened between two reports. -/
structure LoadReport where
  evaluated : List String
  failed : List String
  /-- The first module the order has not passed. -/
  blockedOn : Option String
  /-- How many modules the order has not passed. -/
  pending : Nat
deriving DecidableEq, Repr

/-- Whether nothing failed and nothing is left. -/
def LoadReport.isComplete (r : LoadReport) : Bool := r.failed.isEmpty && r.pending == 0

namespace Environment

/-- Whether retrievals can be started from where an operation is called: those that run beside the
caller need an event loop. -/
def canStart (env : Environment) (caller : Caller) : Bool :=
  !(env.transport.isConcurrent && caller = .outsideEventLoop)

/-- Start a module's retrieval; where the caller waits for it, it is also completed. -/
def start (env : Environment) (spec : ModuleSpec) : Except LoaderError Unit × Environment :=
  match env.transport with
  | .concurrent _ =>
    (.ok (), { env with
      inFlight := env.inFlight + 1
      schedule := env.schedule.spawn ⟨spec.id, spec.location⟩ })
  | .serial medium =>
    let (result, medium) := medium.lookUp spec.location
    { env with transport := .serial medium }.complete spec.id result
  | .none => (.error (.unsupported env.host.name "load"), env)

/-- Take account of one arrival; `rest` is what has arrived after it. -/
def receive (env : Environment) (arrival : Arrival) (rest : List Arrival) :
    Except LoaderError Unit × Environment :=
  { env with
    schedule := { env.schedule with arrived := rest }
    inFlight := env.inFlight - 1 }.complete arrival.id arrival.result

/-- Take account of some arrivals in turn, up to the first error. -/
def receiveAll (env : Environment) : List Arrival → Except LoaderError Unit × Environment
  | [] => (.ok (), env)
  | arrival :: rest =>
    match env.receive arrival rest with
    | (.error e, env) => (.error e, env)
    | (.ok (), env) => env.receiveAll rest

/-- Take account of everything that has arrived. -/
def drain (env : Environment) : Except LoaderError Unit × Environment :=
  env.receiveAll env.schedule.arrived

/-- Start the retrievals of some modules in turn, up to the first error. -/
def startAll (env : Environment) : List ModuleSpec → Except LoaderError Unit × Environment
  | [] => (.ok (), env)
  | spec :: specs =>
    match env.start spec with
    | (.error e, env) => (.error e, env)
    | (.ok (), env) => env.startAll specs

/-- End the phase in which modules are held back: their retrievals start in order. -/
def documentReady (env : Environment) (caller : Caller) : Except LoaderError Unit × Environment :=
  if !env.documentWrite then (.ok (), env)
  else if !env.canStart caller then (.error .noEventLoop, env)
  else
    match { env with documentWrite := false, pendingWrites := [] }.startAll env.pendingWrites with
    | (.error e, env) => (.error e, env)
    | (.ok (), env) => env.drain

/-- Register a new module at the end of the order, and hold it back or start its retrieval. -/
def introduce (env : Environment) (spec : ModuleSpec) : Except LoaderError Unit × Environment :=
  let env := if env.config.debug then env.announce .info ("load: " ++ spec.id) else env
  let env := { env with order := env.order.enqueue spec.id }
  if env.documentWrite then (.ok (), { env with pendingWrites := env.pendingWrites ++ [spec] })
  else env.start spec

/-- Register the modules of a list that are not known yet, up to the first error. -/
def register (env : Environment) : List String → Except LoaderError Unit × Environment
  | [] => (.ok (), env)
  | path :: paths =>
    let spec := env.specFor path
    match env.store.ensure spec with
    | (false, _) => env.register paths
    | (true, store) =>
      match { env with store }.introduce spec with
      | (.error e, env) => (.error e, env)
      | (.ok (), env) => env.register paths

/-- Load modules on a host that retrieves.  Nothing is registered unless its retrieval can be
started. -/
def retrieveAll (env : Environment) (caller : Caller) (paths : List String) :
    Except LoaderError Unit × Environment :=
  if !env.documentWrite && !env.canStart caller then (.error .noEventLoop, env)
  else
    match env.register paths with
    | (.error e, env) => (.error e, env)
    | (.ok (), env) => env.drain

/-- Load every module of a list that is not known yet, in order.  Loading at once ends the phase in
which modules are held back. -/
def loadWith (env : Environment) (caller : Caller) (paths : List String) (atOnce : Bool) :
    Except LoaderError Unit × Environment :=
  match env.profile.behavior with
  | .unsupported => (.error (.unsupported env.host.name "load"), env)
  | .markOnly | .alwaysLoaded => (.ok (), paths.foldl setLoaded env)
  | .retrieve =>
    if atOnce && env.documentWrite then
      match env.documentReady caller with
      | (.error e, env) => (.error e, env)
      | (.ok (), env) => env.retrieveAll caller paths
    else env.retrieveAll caller paths

/-- Load every module of a list that is not known yet, in order. -/
def load (env : Environment) (caller : Caller) (paths : List String) :
    Except LoaderError Unit × Environment :=
  env.loadWith caller paths env.config.forceAsync

/-- Whether code can be evaluated without being retrieved. -/
def acceptsCode (env : Environment) : Bool :=
  match env.profile.behavior with
  | .unsupported | .markOnly => false
  | .retrieve | .alwaysLoaded => true

/-- Evaluate given code as a module, whatever its state was.  A module loaded in this way may be
the one that the order waits for. -/
def evalLoad (env : Environment) (path : String) (hasSourceMap : Bool) (code : String) :
    Except LoaderError Unit × Environment :=
  if !env.acceptsCode then (.error (.unsupported env.host.name "eval_load"), env)
  else
    let env := if env.config.debug then env.announce .info ("eval_load: " ++ path) else env
    let info : Namespace.SourceInfo := ⟨path, (env.specFor path).location, hasSourceMap⟩
    match env.layer.loadModule env.config.wrapOptions info code with
    | (.ok (), layer) =>
      ({ env with layer, store := env.store.force path .evaluated }.noteEvaluated [path]).flush
    | (.error failure, layer) =>
      let env := { env with layer, store := env.store.force path (.failed (.evaluation failure)) }
      let env := env.noteEvaluationFailure failure
      match env.profile.policy with
      | .failForward => (.ok (), env)
      | .failFast => (.error (.evaluation failure), env)

/-- Let a task of a retrieval have its turn while nobody waits for it. -/
def turn (env : Environment) (n : Nat) : Environment :=
  match env.transport with
  | .concurrent medium =>
    let (schedule, medium) := env.schedule.turn medium n
    { env with schedule, transport := .concurrent medium }
  | _ => env

/-- Let tasks have their turns one after the other. -/
def turnAll (env : Environment) (turns : List Nat) : Environment := turns.foldl turn env

/-- Let the retrievals under way run until one has arrived or none is left. -/
def await (env : Environment) : Environment :=
  match env.transport with
  | .concurrent medium =>
    let (schedule, medium) := env.schedule.await medium
    { env with schedule, transport := .concurrent medium }
  | _ => env

/-- Waiting for a retrieval makes no work. -/
theorem work_await_le (env : Environment) : env.await.schedule.work ≤ env.schedule.work := by
  unfold await
  split
  · exact env.schedule.work_await_le _
  · exact Nat.le_refl _

/-- Recording a failed evaluation leaves the schedule alone. -/
@[simp] theorem schedule_noteEvaluationFailure (env : Environment) (f : EvaluationFailure) :
    (env.noteEvaluationFailure f).schedule = env.schedule := rfl

/-- Recording failed evaluations leaves the schedule alone. -/
@[simp] theorem schedule_foldl_noteEvaluationFailure (fs : List EvaluationFailure)
    (env : Environment) : (fs.foldl noteEvaluationFailure env).schedule = env.schedule := by
  induction fs generalizing env with
  | nil => rfl
  | cons f fs ih => simp [ih]

/-- A flush moves no retrieval. -/
@[simp] theorem schedule_flush (env : Environment) : env.flush.2.schedule = env.schedule := by
  simp only [flush]
  split <;> simp [noteEvaluated]

/-- Taking account of a retrieval leaves the schedule alone. -/
@[simp] theorem schedule_complete (env : Environment) (id : String)
    (result : Except RetrievalFailure String) :
    (env.complete id result).2.schedule = env.schedule := by
  cases result with
  | ok code => simp [complete]
  | error failure =>
    simp only [complete]
    split
    · simp
    · split <;> simp [noteRetrievalFailure]

/-- Taking an arrival leaves less work. -/
theorem work_receive_lt (env : Environment) {arrival : Arrival} {rest : List Arrival}
    (h : env.schedule.arrived = arrival :: rest) :
    (env.receive arrival rest).2.schedule.work < env.schedule.work := by
  simp only [receive, schedule_complete, Schedule.work, h, List.length_cons]
  omega

/-- Take account of one arrival after the other until none is outstanding. -/
def settleAll (env : Environment) : Except LoaderError Unit × Environment :=
  if env.inFlight = 0 then (.ok (), env)
  else
    match _h : env.await.schedule.arrived with
    | [] => (.ok (), env.await)
    | arrival :: rest =>
      match _hr : env.await.receive arrival rest with
      | (.error e, env) => (.error e, env)
      | (.ok (), env) => env.settleAll
termination_by env.schedule.work
decreasing_by
  rename_i env₀ _
  have h1 := env₀.await.work_receive_lt _h
  have h2 := env₀.work_await_le
  rw [_hr] at h1
  exact Nat.lt_of_lt_of_le h1 h2

/-- The report on what happened since the last one. -/
def reportNow (env : Environment) : LoadReport where
  evaluated := env.progress.evaluated
  failed := env.progress.failed
  blockedOn := env.order.pending.head?
  pending := env.order.pending.length

/-- Hand out the report; a complete one is announced. -/
def report (env : Environment) : LoadReport × Environment :=
  let r := env.reportNow
  let env := { env with progress := ⟨[], []⟩ }
  (r, if r.isComplete then env.announce .info "load settled" else env)

/-- Wait for every retrieval under way and evaluate what it makes ready. -/
def settle (env : Environment) : Except LoaderError LoadReport × Environment :=
  match env.drain with
  | (.error e, env) => (.error e, env)
  | (.ok (), env) =>
    match env.settleAll with
    | (.error e, env) => (.error e, env)
    | (.ok (), env) =>
      let (r, env) := env.report
      (.ok r, env)

end Environment

end ModuleLoader
