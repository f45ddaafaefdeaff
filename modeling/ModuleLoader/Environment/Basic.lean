import ModuleLoader.Configuration.Basic
import ModuleLoader.Diagnostic
import ModuleLoader.Location
import ModuleLoader.Namespace.Scope
import ModuleLoader.Retrieval.Schedule

/-!
# Environments

An environment is one loader: the records of its modules, their order, the namespace they are
evaluated in and the retrievals under way.  This module builds environments and says what becomes
of a retrieval that has finished.  Evaluation happens only where the order is flushed.
-/

set_option autoImplicit false

namespace ModuleLoader

open ModuleLoader.Namespace (Layer)

/-- The functions that fail on hosts without an event loop. -/
def timerFunctions : List String :=
  ["setTimeout", "clearTimeout", "setInterval", "clearInterval", "setImmediate", "clearImmediate"]

/-- What a call of a timer function fails with. -/
def timersUnsupported : String := "async functions not supported in the embedded engine"

/-- What happened since the last report was handed out. -/
structure Progress where
  /-- The modules evaluated, in order. -/
  evaluated : List String
  /-- The modules that failed, in order. -/
  failed : List String
deriving DecidableEq, Repr

/-- One loader. -/
structure Environment where
  config : Configuration
  transport : Transport
  /-- The modules whose location was given beforehand. -/
  specs : Table ModuleSpec
  store : ModuleStore
  order : LoadOrder
  layer : Layer
  journal : Journal
  /-- Whether modules are held back until the document is ready. -/
  documentWrite : Bool
  /-- The modules held back, in order. -/
  pendingWrites : List ModuleSpec
  schedule : Schedule
  /-- The retrievals started and not yet taken account of. -/
  inFlight : Nat
  progress : Progress

namespace Environment

/-- The host that the environment is for. -/
def host (env : Environment) : Host := env.config.host

/-- How the host of the environment loads. -/
def profile (env : Environment) : HostProfile := env.host.profile

/-- The engine that modules are evaluated with: the given one, with the timer functions bound to fail
where they have to. -/
def readyEngine (profile : HostProfile) (engine : Script.Engine) : Script.Engine :=
  if profile.timersUnsupported then
    timerFunctions.foldl (fun e name => e.bindUnsupported name timersUnsupported) engine
  else engine

/-- The transport an environment uses: none on a host that retrieves nothing, else the given one,
which must then be there. -/
def chooseTransport (host : Host) (transport : Transport) : Except LoaderError Transport :=
  match host.profile.retrieval, transport with
  | .none, _ => .ok .none
  | _, .none => .error (.config (.needsTransport host.name))
  | _, t => .ok t

/-- Build an environment on a transport and an engine of the bundled kind, which may have been used
before and may have any host functions. -/
def make (config : Configuration) (transport : Transport) (engine : Script.Engine := .initial) :
    Except LoaderError Environment :=
  match config.validate with
  | .error e => .error e
  | .ok () =>
    match chooseTransport config.host transport with
    | .error e => .error e
    | .ok transport =>
      .ok {
        config, transport
        specs := .empty
        store := .empty
        order := .initial
        layer := .make (readyEngine config.host.profile engine)
        journal := .empty
        documentWrite := config.host.profile.documentWrite && !config.forceAsync
        pendingWrites := []
        schedule := .idle config.maxConcurrency
        inFlight := 0
        progress := ⟨[], []⟩ }

/-- The transport of a host to which none is given.  That a client for remote places can be built is
taken for granted. -/
def defaultTransport (config : Configuration) (files : FileSystem) (place : Remote := .offline) :
    Except LoaderError Transport :=
  match config.host.profile.retrieval, isRemote config.base with
  | .concurrentFetch, true => .ok (.concurrent (.remote place))
  | .concurrentFetch, false => .ok (.concurrent (.files files))
  | .serialImport, true | .localSync, true =>
    .error (.config (.needsDirectory config.host.name config.base))
  | .serialImport, false | .localSync, false => .ok (.serial (.files files))
  | .none, _ => .ok .none

/-- Build an environment on a new engine and the transport its host has by itself. -/
def forHost (config : Configuration) (files : FileSystem) (place : Remote := .offline) :
    Except LoaderError Environment :=
  match defaultTransport config files place with
  | .error e => .error e
  | .ok transport => make config transport

/-- The environment with the locations of some modules given beforehand. -/
def withSpecs (env : Environment) (specs : List ModuleSpec) : Environment :=
  { env with specs := env.specs.setAll (specs.map fun spec => (spec.id, spec)) }

/-- Where a module is retrieved from and whether it has a source map: as given beforehand, else at
its id read against the base. -/
def specFor (env : Environment) (id : String) : ModuleSpec :=
  (env.specs.get? id).getD ⟨id, resolveLocation env.config.base id, false⟩

/-- The location of a module: that of its record, if it has one. -/
def locationOf (env : Environment) (id : String) : String :=
  match env.store.get? id with
  | some record => record.location
  | none => (env.specFor id).location

/-- Whether a module has been evaluated or counts as loaded. -/
def isLoaded (env : Environment) (id : String) : Bool :=
  env.profile.behavior = .alwaysLoaded || env.store.isLoaded id

/-- Take a module as evaluated, whatever its record says, without a flush. -/
def setLoaded (env : Environment) (id : String) : Environment :=
  { env with store := env.store.markLoaded id }

/-- The lines the modules wrote since they were last taken, and the environment without them. -/
def takeOutput (env : Environment) : List String × Environment :=
  (env.layer.engine.output,
    { env with layer := { env.layer with engine := env.layer.engine.dropOutput } })

/-- The environment with one more event in its journal. -/
def announce (env : Environment) (level : Level) (text : String) : Environment :=
  { env with journal := env.journal.announce level text }

/-- Keep a diagnostic of a failed evaluation and report its module as failed. -/
def noteEvaluationFailure (env : Environment) (failure : EvaluationFailure) : Environment :=
  { env with
    journal := env.journal.evaluation (env.locationOf failure.module) failure
      (env.profile.policy = .failForward)
    progress := { env.progress with failed := env.progress.failed ++ [failure.module] } }

/-- Report modules as evaluated. -/
def noteEvaluated (env : Environment) (ids : List String) : Environment :=
  { env with progress := { env.progress with evaluated := env.progress.evaluated ++ ids } }

/-- How a flush evaluates a module: as a body in the namespace. -/
def evaluator (options : Namespace.WrapOptions) : Evaluator Layer := fun record code layer =>
  layer.loadModule options ⟨record.id, record.location, record.hasSourceMap⟩ code

/-- Evaluate what has come in order.  A failure that stops the flush is answered, and what the flush
had evaluated before is not reported. -/
def flush (env : Environment) : Except LoaderError Unit × Environment :=
  let (order, f) :=
    env.order.flush env.profile.policy (evaluator env.config.wrapOptions) env.store env.layer
  let env := { env with order, store := f.store, layer := f.state }
  match f.outcome with
  | .ok report => (.ok (), (report.failed.foldl noteEvaluationFailure env).noteEvaluated report.evaluated)
  | .error failure => (.error (.evaluation failure), env.noteEvaluationFailure failure)

/-- Keep a diagnostic of a failed retrieval and report its module as failed. -/
def noteRetrievalFailure (env : Environment) (id location : String) (failure : RetrievalFailure) :
    Environment :=
  { env with
    journal := env.journal.retrieval id location failure
    progress := { env.progress with failed := env.progress.failed ++ [id] } }

/-- Take account of a retrieval that has finished, and evaluate what it makes ready.  A failure that
comes after the module was settled on another way counts for nothing. -/
def complete (env : Environment) (id : String) (result : Except RetrievalFailure String) :
    Except LoaderError Unit × Environment :=
  match result with
  | .ok code => { env with store := (env.store.advance id (.retrieved code)).2 }.flush
  | .error failure =>
    match env.store.advance id (.failed (.retrieval failure)) with
    | (false, _) => env.flush
    | (true, store) =>
      let location := env.locationOf id
      let env := { env with store }.noteRetrievalFailure id location failure
      match env.profile.policy with
      | .failFast => (.error (.retrieval id location failure), env)
      | .failForward => env.flush

end Environment

end ModuleLoader
