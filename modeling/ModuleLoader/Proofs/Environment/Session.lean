import Mathlib.Logic.Relation
import ModuleLoader.Proofs.Environment.Flush
import ModuleLoader.Proofs.Retrieval.Outstanding

/-!
# Sessions with an environment

An environment is used by any number of actions: calls of its operations, and what goes on around
it meanwhile.  Loading, releasing the modules held back and settling are made of small steps, each
of which moves one module on its way or takes account of one arrival.  Main statement:
`perform_steps`, every such action is a sequence of steps, and never fails on a host that goes on
after failures.
-/

set_option autoImplicit false

namespace ModuleLoader

/-! ## Actions -/

/-- What is done to an environment, and what goes on around it. -/
inductive Action where
  | load (caller : Caller) (paths : List String)
  | loadWith (caller : Caller) (paths : List String) (atOnce : Bool)
  | documentReady (caller : Caller)
  | setLoaded (id : String)
  | evalLoad (path : String) (hasSourceMap : Bool) (code : String)
  | settle
  /-- A task of a retrieval has its turn while nobody waits for it. -/
  | turn (n : Nat)
  /-- A latency ends while nobody waits for it. -/
  | rouse (n : Nat)
  /-- The place that code is retrieved from holds something else from now on. -/
  | supply (content : Medium)

namespace Action

/-- Whether an action registers modules, lets them go, moves their retrievals on or settles. -/
def isLoading : Action → Bool
  | .load _ _ | .loadWith _ _ _ | .documentReady _ | .settle | .turn _ | .rouse _ => true
  | .setLoaded _ | .evalLoad _ _ _ | .supply _ => false

/-- The paths that an action asks for. -/
def paths : Action → List String
  | .load _ paths | .loadWith _ paths _ => paths
  | _ => []

/-- Where an action is done; only some of the operations can be called from outside. -/
def caller : Action → Caller
  | .load caller _ | .loadWith caller _ _ | .documentReady caller => caller
  | _ => .insideEventLoop

end Action

namespace Environment

/-- Change what code is retrieved from. -/
def supply (env : Environment) (content : Medium) : Environment :=
  match env.transport with
  | .concurrent _ => { env with transport := .concurrent content }
  | .serial _ => { env with transport := .serial content }
  | .none => env

/-- The answer of an operation that hands out no report. -/
def unreported (outcome : Except LoaderError Unit × Environment) :
    Except LoaderError (Option LoadReport) × Environment :=
  (outcome.1.map fun _ => none, outcome.2)

/-- Do one thing. -/
def perform (env : Environment) : Action → Except LoaderError (Option LoadReport) × Environment
  | .load caller paths => unreported (env.load caller paths)
  | .loadWith caller paths atOnce => unreported (env.loadWith caller paths atOnce)
  | .documentReady caller => unreported (env.documentReady caller)
  | .setLoaded id => (.ok none, env.setLoaded id)
  | .evalLoad path hasSourceMap code => unreported (env.evalLoad path hasSourceMap code)
  | .settle =>
    let (answer, env) := env.settle
    (answer.map some, env)
  | .turn n => (.ok none, env.turn n)
  | .rouse n => (.ok none, { env with schedule := env.schedule.rouse n })
  | .supply content => (.ok none, env.supply content)

/-- Do one thing after the other; answers what each answered. -/
def run (env : Environment) :
    List Action → List (Except LoaderError (Option LoadReport)) × Environment
  | [] => ([], env)
  | action :: actions =>
    let (answer, env) := env.perform action
    let (answers, env) := env.run actions
    (answer :: answers, env)

/-- The reports handed out among some answers. -/
def reportsOf (answers : List (Except LoaderError (Option LoadReport))) : List LoadReport :=
  answers.filterMap fun
    | .ok report => report
    | .error _ => none

end Environment

/-! ## Moments and steps -/

/-- What has passed between an environment and those who use it. -/
structure Log where
  /-- The paths that were to be loaded so far, repetitions included. -/
  asked : List String
  /-- The reports handed out so far. -/
  reports : List LoadReport

namespace Log

/-- Nothing has passed. -/
def empty : Log := ⟨[], []⟩

/-- The log when more paths are to be loaded. -/
def asking (log : Log) (paths : List String) : Log := { log with asked := log.asked ++ paths }

/-- The log when more reports have been handed out. -/
def reporting (log : Log) (reports : List LoadReport) : Log :=
  { log with reports := log.reports ++ reports }

/-- Asking for nothing leaves the log as it is. -/
@[simp] theorem asking_nil (log : Log) : log.asking [] = log := by simp [asking]

/-- Asking twice is asking for both. -/
@[simp] theorem asking_asking (log : Log) (paths more : List String) :
    (log.asking paths).asking more = log.asking (paths ++ more) := by simp [asking]

/-- Reporting nothing leaves the log as it is. -/
@[simp] theorem reporting_nil (log : Log) : log.reporting [] = log := by simp [reporting]

/-- What was asked for and what was reported are logged apart. -/
theorem asking_reporting (log : Log) (paths more : List String) (reports later : List LoadReport) :
    (((log.asking paths).reporting reports).asking more).reporting later =
      (log.asking (paths ++ more)).reporting (reports ++ later) := by
  simp [asking, reporting]

end Log

/-- An environment between two steps. -/
structure Moment where
  env : Environment
  /-- The modules registered whose retrieval was neither started nor held back yet. -/
  hand : List ModuleSpec
  log : Log

namespace Moment

/-- The steps that loading, releasing the modules held back and settling are made of. -/
inductive Step : Moment → Moment → Prop where
  | announce (env : Environment) (hand : List ModuleSpec) (log : Log)
      (level : Level) (text : String) :
      Step ⟨env, hand, log⟩ ⟨env.announce level text, hand, log⟩
  | register (env : Environment) (hand : List ModuleSpec) (log : Log)
      (path : String) (new : env.store.get? (env.specFor path).id = none) :
      Step ⟨env, hand, log⟩
        ⟨{ env with
            store := (env.store.ensure (env.specFor path)).2
            order := env.order.enqueue (env.specFor path).id },
          hand ++ [env.specFor path], log.asking [path]⟩
  | skip (env : Environment) (hand : List ModuleSpec) (log : Log)
      (path : String) (known : env.store.get? (env.specFor path).id ≠ none) :
      Step ⟨env, hand, log⟩ ⟨env, hand, log.asking [path]⟩
  | hold (env : Environment) (hand : List ModuleSpec) (log : Log)
      (spec : ModuleSpec) (held : env.documentWrite = true) :
      Step ⟨env, spec :: hand, log⟩
        ⟨{ env with pendingWrites := env.pendingWrites ++ [spec] }, hand, log⟩
  | release (env : Environment) (hand : List ModuleSpec) (log : Log) :
      Step ⟨env, hand, log⟩
        ⟨{ env with documentWrite := false, pendingWrites := [] }, env.pendingWrites ++ hand,
          log⟩
  | spawn (env : Environment) (hand : List ModuleSpec) (log : Log)
      (spec : ModuleSpec) (medium : Medium) (concurrent : env.transport = .concurrent medium) :
      Step ⟨env, spec :: hand, log⟩
        ⟨{ env with
            inFlight := env.inFlight + 1
            schedule := env.schedule.spawn ⟨spec.id, spec.location⟩ },
          hand, log⟩
  | fetch (env : Environment) (hand : List ModuleSpec) (log : Log)
      (spec : ModuleSpec) (medium : Medium) (serial : env.transport = .serial medium) :
      Step ⟨env, spec :: hand, log⟩
        ⟨({ env with transport := .serial (medium.lookUp spec.location).2 }.complete spec.id
            (medium.content spec.location)).2,
          hand, log⟩
  | receive (env : Environment) (hand : List ModuleSpec) (log : Log)
      (arrival : Arrival) (rest : List Arrival)
      (arrived : env.schedule.arrived = arrival :: rest) :
      Step ⟨env, hand, log⟩ ⟨(env.receive arrival rest).2, hand, log⟩
  | await (env : Environment) (hand : List ModuleSpec) (log : Log) :
      Step ⟨env, hand, log⟩ ⟨env.await, hand, log⟩
  | turn (env : Environment) (hand : List ModuleSpec) (log : Log) (n : Nat) :
      Step ⟨env, hand, log⟩ ⟨env.turn n, hand, log⟩
  | rouse (env : Environment) (hand : List ModuleSpec) (log : Log) (n : Nat) :
      Step ⟨env, hand, log⟩ ⟨{ env with schedule := env.schedule.rouse n }, hand, log⟩
  | report (env : Environment) (hand : List ModuleSpec) (log : Log) :
      Step ⟨env, hand, log⟩ ⟨env.report.2, hand, log.reporting [env.reportNow]⟩

/-- Any number of steps. -/
abbrev Steps : Moment → Moment → Prop := Relation.ReflTransGen Step

end Moment

namespace Environment

open Moment

/-! ## What no step changes -/

/-- What no step changes. -/
structure Kept (env env' : Environment) : Prop where
  config : env'.config = env.config
  specs : env'.specs = env.specs
  transport : env'.transport = .none ↔ env.transport = .none
  /-- Modules that were let go are never held back again. -/
  documentWrite : env'.documentWrite = true → env.documentWrite = true

/-- Nothing changes where nothing happens. -/
theorem Kept.refl (env : Environment) : env.Kept env := ⟨rfl, rfl, Iff.rfl, id⟩

/-- What two stretches keep is kept over both. -/
theorem Kept.trans {env env' env'' : Environment} (h : env.Kept env') (h' : env'.Kept env'') :
    env.Kept env'' where
  config := h'.config.trans h.config
  specs := h'.specs.trans h.specs
  transport := h'.transport.trans h.transport
  documentWrite hd := h.documentWrite (h'.documentWrite hd)

/-- A document that is ready stays so. -/
theorem Kept.released {env env' : Environment} (h : env.Kept env')
    (hd : env.documentWrite = false) : env'.documentWrite = false := by
  rw [← Bool.not_eq_true]
  intro hw
  rw [h.documentWrite hw] at hd
  cases hd

/-- The way in which the host loads is kept. -/
theorem Kept.profile {env env' : Environment} (h : env.Kept env') : env'.profile = env.profile := by
  unfold Environment.profile host
  rw [h.config]

/-- Taking account of a retrieval keeps what no step changes. -/
theorem kept_complete (env : Environment) (id : String) (result : Except RetrievalFailure String) :
    env.Kept (env.complete id result).2 := by
  obtain ⟨store, order, layer, journal, progress, h⟩ := env.complete_frame id result
  rw [h]
  exact ⟨rfl, rfl, Iff.rfl, fun hd => hd⟩

/-- Move on what is under way, where retrievals run beside the caller. -/
def stir (env : Environment) (move : Schedule → Medium → Schedule × Medium) : Environment :=
  match env.transport with
  | .concurrent medium => { env with
      schedule := (move env.schedule medium).1
      transport := .concurrent (move env.schedule medium).2 }
  | _ => env

/-- Waiting moves on what is under way. -/
theorem await_eq_stir (env : Environment) : env.await = env.stir Schedule.await := by
  unfold await stir
  cases env.transport <;> rfl

/-- A turn of a retrieval moves on what is under way. -/
theorem turn_eq_stir (env : Environment) (n : Nat) :
    env.turn n = env.stir fun schedule medium => schedule.turn medium n := by
  unfold turn stir
  cases env.transport <;> rfl

/-- With retrievals beside the caller, moving them on changes the schedule and the medium. -/
theorem stir_of_concurrent {env : Environment} {medium : Medium}
    (h : env.transport = .concurrent medium) (move : Schedule → Medium → Schedule × Medium) :
    env.stir move = { env with
      schedule := (move env.schedule medium).1
      transport := .concurrent (move env.schedule medium).2 } := by
  simp only [stir, h]

/-- Retrievals are moved on only where they run beside the caller. -/
theorem stir_cases (env : Environment) (move : Schedule → Medium → Schedule × Medium) :
    (∃ medium, env.transport = .concurrent medium) ∨ env.stir move = env := by
  unfold stir
  cases env.transport with
  | concurrent medium => exact .inl ⟨medium, rfl⟩
  | serial medium => exact .inr rfl
  | none => exact .inr rfl

/-- Moving retrievals on changes the schedule and the transport alone. -/
theorem stir_frame (env : Environment) (move : Schedule → Medium → Schedule × Medium) :
    ∃ schedule transport, env.stir move = { env with schedule, transport } := by
  rcases env.stir_cases move with ⟨medium, ht⟩ | hnone
  · rw [stir_of_concurrent ht]
    exact ⟨_, _, rfl⟩
  · rw [hnone]
    exact ⟨env.schedule, env.transport, rfl⟩

/-- Moving retrievals on keeps what no step changes. -/
theorem kept_stir (env : Environment) (move : Schedule → Medium → Schedule × Medium) :
    env.Kept (env.stir move) := by
  rcases env.stir_cases move with ⟨medium, ht⟩ | hnone
  · rw [stir_of_concurrent ht]
    exact ⟨rfl, rfl, by simp [ht], fun hd => hd⟩
  · rw [hnone]
    exact .refl env

/-- Handing out a report keeps what no step changes. -/
theorem kept_report (env : Environment) : env.Kept env.report.2 := by
  obtain ⟨journal, h⟩ := env.report_frame
  rw [h]
  exact ⟨rfl, rfl, Iff.rfl, fun hd => hd⟩

end Environment

namespace Moment

open Environment

/-- A step keeps what none changes. -/
theorem Step.kept {m m' : Moment} (h : Step m m') : m.env.Kept m'.env := by
  cases h with
  | announce env hand log level text => exact ⟨rfl, rfl, Iff.rfl, fun hd => hd⟩
  | register env hand log path new => exact ⟨rfl, rfl, Iff.rfl, fun hd => hd⟩
  | skip env hand log path known => exact .refl env
  | hold env hand log spec held => exact ⟨rfl, rfl, Iff.rfl, fun hd => hd⟩
  | release env hand log => exact ⟨rfl, rfl, Iff.rfl, fun hd => by cases hd⟩
  | spawn env hand log spec medium concurrent => exact ⟨rfl, rfl, Iff.rfl, fun hd => hd⟩
  | fetch env hand log spec medium serial =>
    have hlook : env.Kept { env with transport := .serial (medium.lookUp spec.location).2 } :=
      ⟨rfl, rfl, by simp [serial], fun hd => hd⟩
    exact hlook.trans (kept_complete _ _ _)
  | receive env hand log arrival rest arrived =>
    have htake : env.Kept { env with
        schedule := { env.schedule with arrived := rest }
        inFlight := env.inFlight - 1 } := ⟨rfl, rfl, Iff.rfl, fun hd => hd⟩
    exact htake.trans (kept_complete _ _ _)
  | await env hand log =>
    rw [await_eq_stir]
    exact kept_stir env _
  | turn env hand log n =>
    rw [turn_eq_stir]
    exact kept_stir env fun schedule medium => schedule.turn medium n
  | rouse env hand log n => exact ⟨rfl, rfl, Iff.rfl, fun hd => hd⟩
  | report env hand log => exact kept_report env

/-- So do any number of steps. -/
theorem Steps.kept {m m' : Moment} (h : Steps m m') : m.env.Kept m'.env := by
  induction h with
  | refl => exact .refl _
  | tail _ hstep ih => exact ih.trans hstep.kept

end Moment

/-! ## Operations are steps -/

/-- What one operation is followed by, unless it fails. -/
def andThen (outcome : Except LoaderError Unit × Environment)
    (next : Environment → Except LoaderError Unit × Environment) :
    Except LoaderError Unit × Environment :=
  match outcome with
  | (.error e, env) => (.error e, env)
  | (.ok (), env) => next env

/-- What follows on a success goes on from there. -/
theorem andThen_of_ok {outcome : Except LoaderError Unit × Environment} (h : outcome.1 = .ok ())
    (next : Environment → Except LoaderError Unit × Environment) :
    andThen outcome next = next outcome.2 := by
  obtain ⟨answer, env⟩ := outcome
  cases h
  rfl

/-- Nothing follows on an error. -/
theorem andThen_of_error {outcome : Except LoaderError Unit × Environment} {e : LoaderError}
    (h : outcome.1 = .error e) (next : Environment → Except LoaderError Unit × Environment) :
    andThen outcome next = (.error e, outcome.2) := by
  obtain ⟨answer, env⟩ := outcome
  cases h
  rfl

namespace Environment

open Moment

/-- Arrivals are taken one after the other, up to the first error. -/
theorem receiveAll_cons (env : Environment) (arrival : Arrival) (rest : List Arrival) :
    env.receiveAll (arrival :: rest) = andThen (env.receive arrival rest) (·.receiveAll rest) := by
  rw [receiveAll]
  rfl

/-- Retrievals are started one after the other, up to the first error. -/
theorem startAll_cons (env : Environment) (spec : ModuleSpec) (specs : List ModuleSpec) :
    env.startAll (spec :: specs) = andThen (env.start spec) (·.startAll specs) := by
  rw [startAll]
  rfl

/-- What holds of the environments of all hosts that retrieve modules. -/
structure Retrieving (env : Environment) : Prop where
  behavior : env.profile.behavior = .retrieve
  transport : env.transport ≠ .none
  held : env.documentWrite = true → env.profile.policy = .failForward

/-- No step takes from a host that it retrieves modules. -/
theorem Retrieving.kept {env env' : Environment} (h : env.Retrieving) (hk : env.Kept env') :
    env'.Retrieving where
  behavior := by
    rw [hk.profile]
    exact h.behavior
  transport hn := h.transport (hk.transport.1 hn)
  held hd := by
    rw [hk.profile]
    exact h.held (hk.documentWrite hd)

/-- A change of what code is retrieved from changes the transport alone, and not its kind. -/
theorem supply_frame (env : Environment) (content : Medium) : ∃ transport,
    env.supply content = { env with transport } ∧ (transport = .none ↔ env.transport = .none) ∧
      ((∀ medium, transport ≠ .concurrent medium) → ∀ medium, env.transport ≠ .concurrent medium) := by
  unfold supply
  split
  · exact ⟨.concurrent content, rfl, by simp [*], fun hn => absurd rfl (hn content)⟩
  · exact ⟨.serial content, rfl, by simp [*], fun _ => by simp [*]⟩
  · exact ⟨env.transport, rfl, Iff.rfl, id⟩

/-- A host retrieves modules whatever they are retrieved from. -/
theorem Retrieving.supply {env : Environment} (h : env.Retrieving) (content : Medium) :
    (env.supply content).Retrieving := by
  obtain ⟨transport, hs, hnone, -⟩ := env.supply_frame content
  rw [hs]
  exact ⟨h.behavior, fun hn => h.transport (hnone.1 hn), h.held⟩

/-- An operation leads by steps from modules in hand to those left there, and asks for some paths on
the way.  It does not fail where loading goes on after failures and retrievals can be started; where
it does fail, it may not have come to all paths. -/
structure Leads (caller : Caller) (env : Environment) (hand : List ModuleSpec)
    (paths : List String) (outcome : Except LoaderError Unit × Environment)
    (left : List ModuleSpec) : Prop where
  steps : ∃ asked, (outcome.1 = .ok () → asked = paths) ∧
    ∀ log, Steps ⟨env, hand, log⟩ ⟨outcome.2, left, log.asking asked⟩
  ok : env.profile.policy = .failForward → caller = .insideEventLoop → outcome.1 = .ok ()

variable {caller : Caller} {env env' : Environment} {hand mid left : List ModuleSpec}
  {paths more : List String} {outcome : Except LoaderError Unit × Environment}

/-- Steps that ask for nothing lead to where they end, if nothing fails where it may not. -/
theorem Leads.ofSteps (steps : ∀ log, Steps ⟨env, hand, log⟩ ⟨outcome.2, left, log⟩)
    (ok : env.profile.policy = .failForward → caller = .insideEventLoop → outcome.1 = .ok ()) :
    Leads caller env hand [] outcome left where
  steps := ⟨[], fun _ => rfl, fun log => by simpa using steps log⟩
  ok := ok

/-- An operation that leads by steps keeps what no step changes. -/
theorem Leads.kept (h : Leads caller env hand paths outcome left) : env.Kept outcome.2 := by
  obtain ⟨asked, -, hsteps⟩ := h.steps
  exact (hsteps .empty).kept

/-- Doing nothing leads nowhere else. -/
theorem Leads.nothing (caller : Caller) (env : Environment) (hand : List ModuleSpec) :
    Leads caller env hand [] (.ok (), env) hand := .ofSteps (fun _ => .refl) fun _ _ => rfl

/-- A step that asks for paths may come first. -/
theorem Leads.afterAsking (hstep : ∀ log, Step ⟨env, hand, log⟩ ⟨env', mid, log.asking paths⟩)
    (h : Leads caller env' mid more outcome left) :
    Leads caller env hand (paths ++ more) outcome left := by
  obtain ⟨asked, hasked, hsteps⟩ := h.steps
  refine ⟨⟨paths ++ asked, ?_, ?_⟩, ?_⟩
  · intro hok
    rw [hasked hok]
  · intro log
    rw [← Log.asking_asking]
    exact .head (hstep log) (hsteps _)
  · intro hf
    refine h.ok ?_
    rw [(hstep .empty).kept.profile]
    exact hf

/-- A step that asks for nothing may come first. -/
theorem Leads.after (hstep : ∀ log, Step ⟨env, hand, log⟩ ⟨env', mid, log⟩)
    (h : Leads caller env' mid paths outcome left) : Leads caller env hand paths outcome left := by
  have hnone : ∀ log, Step ⟨env, hand, log⟩ ⟨env', mid, log.asking []⟩ := by simpa using hstep
  exact .afterAsking hnone h

/-- One operation may follow another; if the first may fail, it leaves the same in hand. -/
theorem Leads.andThen {next : Environment → Except LoaderError Unit × Environment}
    (h : Leads caller env hand paths outcome mid)
    (hnext : ∀ env', outcome = (.ok (), env') → env.Kept env' →
      Leads caller env' mid more (next env') left)
    (hfail : mid = left ∨ outcome.1 = .ok ()) :
    Leads caller env hand (paths ++ more) (ModuleLoader.andThen outcome next) left := by
  obtain ⟨answer, env'⟩ := outcome
  have hk := h.kept
  obtain ⟨asked, hasked, hsteps⟩ := h.steps
  cases answer with
  | error e =>
    have heq : mid = left := hfail.resolve_right (by simp)
    rw [heq] at hsteps
    exact ⟨⟨asked, nofun, hsteps⟩, fun hf hc => nomatch h.ok hf hc⟩
  | ok u =>
    have hl := hnext env' rfl hk
    obtain ⟨asked', hasked', hsteps'⟩ := hl.steps
    refine ⟨⟨asked ++ asked', ?_, ?_⟩, ?_⟩
    · intro hok
      rw [hasked rfl, hasked' hok]
    · intro log
      rw [← Log.asking_asking]
      exact (hsteps log).trans (hsteps' _)
    · intro hf
      refine hl.ok ?_
      rw [hk.profile]
      exact hf

/-- Taking account of a retrieval never fails where loading goes on after failures. -/
theorem complete_ok (env : Environment) (h : env.profile.policy = .failForward) (id : String)
    (result : Except RetrievalFailure String) : (env.complete id result).1 = .ok () := by
  rw [complete_of_failForward h]
  obtain ⟨journal, progress, hn⟩ := env.noteArrival_frame id result
  have hpolicy : (env.noteArrival id result).profile.policy = .failForward := by
    rw [hn]
    exact h
  obtain ⟨⟨r, hr⟩, -⟩ := Flush.through_failForward
    (evaluator (env.noteArrival id result).config.wrapOptions)
    (env.noteArrival id result).order.pending (env.noteArrival id result).store
    (env.noteArrival id result).layer
  rw [← hpolicy] at hr
  exact (flush_of_ok _ hr).1

/-- Taking an arrival is a step. -/
theorem receive_leads (caller : Caller) (env : Environment) (hand : List ModuleSpec)
    {arrival : Arrival} {rest : List Arrival} (h : env.schedule.arrived = arrival :: rest) :
    Leads caller env hand [] (env.receive arrival rest) hand := by
  refine .ofSteps (fun log => .single (.receive env hand log arrival rest h)) fun hf _ => ?_
  refine complete_ok { env with
    schedule := { env.schedule with arrived := rest }
    inFlight := env.inFlight - 1 } ?_ arrival.id arrival.result
  exact hf

/-- Taking several arrivals is done by steps. -/
theorem receiveAll_leads (caller : Caller) (env : Environment) (hand : List ModuleSpec)
    {arrivals : List Arrival} (h : env.schedule.arrived = arrivals) :
    Leads caller env hand [] (env.receiveAll arrivals) hand := by
  induction arrivals generalizing env with
  | nil => exact .nothing caller env hand
  | cons arrival rest ih =>
    rw [receiveAll_cons]
    refine (receive_leads caller env hand h).andThen ?_ (.inl rfl)
    intro env' he hk
    refine ih env' ?_
    have hs : env'.schedule = (env.receive arrival rest).2.schedule := by rw [he]
    rw [hs, receive, schedule_complete]

/-- Taking everything that has arrived is done by steps. -/
theorem drain_leads (caller : Caller) (env : Environment) (hand : List ModuleSpec) :
    Leads caller env hand [] env.drain hand := receiveAll_leads caller env hand rfl

/-- Starting the retrieval of a module in hand is done by steps. -/
theorem start_leads (caller : Caller) (h : env.transport ≠ .none) (spec : ModuleSpec)
    (hand : List ModuleSpec) : Leads caller env (spec :: hand) [] (env.start spec) hand := by
  unfold start
  split
  · rename_i medium ht
    exact .ofSteps (fun log => .single (.spawn env hand log spec medium ht)) fun _ _ => rfl
  · rename_i medium ht
    refine .ofSteps (fun log => .single (.fetch env hand log spec medium ht)) fun hf _ => ?_
    exact complete_ok { env with transport := .serial (medium.lookUp spec.location).2 } hf spec.id _
  · rename_i ht
    exact absurd ht h

/-- Starting the retrievals of modules in hand is done by steps. -/
theorem startAll_leads (caller : Caller) (env : Environment) (h : env.transport ≠ .none)
    (hf : env.profile.policy = .failForward) (specs hand : List ModuleSpec) :
    Leads caller env (specs ++ hand) [] (env.startAll specs) hand := by
  induction specs generalizing env with
  | nil => exact .nothing caller env hand
  | cons spec specs ih =>
    rw [startAll_cons]
    have hstart := start_leads caller h spec (specs ++ hand)
    have hok := (start_leads .insideEventLoop h spec (specs ++ hand)).ok hf rfl
    refine hstart.andThen ?_ (.inr hok)
    intro env' he hk
    refine ih env' (fun hn => h (hk.transport.1 hn)) ?_
    rw [hk.profile]
    exact hf

/-- Inside an event loop retrievals can be started. -/
theorem canStart_insideEventLoop (env : Environment) : env.canStart .insideEventLoop = true := by
  simp [canStart]

/-- A refused operation leads nowhere else. -/
theorem Leads.refused (h : env.canStart caller = false) (hand : List ModuleSpec) :
    Leads caller env hand paths (.error .noEventLoop, env) hand := by
  refine ⟨⟨[], nofun, fun log => ?_⟩, fun _ hc => ?_⟩
  · rw [Log.asking_nil]
  · rw [hc, canStart_insideEventLoop] at h
    cases h

/-- Telling the document ready lets go the modules held back, starts their retrievals and takes what
has arrived. -/
theorem documentReady_of_held (hd : env.documentWrite = true) (hc : env.canStart caller = true) :
    env.documentReady caller = ModuleLoader.andThen
      ({ env with documentWrite := false, pendingWrites := [] }.startAll env.pendingWrites)
      drain := by
  unfold documentReady
  simp only [hd, hc, Bool.not_true, Bool.false_eq_true, if_false]
  rfl

/-- Starting the retrievals of the modules that were held back is done by steps. -/
theorem release_leads (caller : Caller) (h : env.Retrieving) (hd : env.documentWrite = true) :
    Leads caller { env with documentWrite := false, pendingWrites := [] } env.pendingWrites []
      (ModuleLoader.andThen
        ({ env with documentWrite := false, pendingWrites := [] }.startAll env.pendingWrites) drain)
      [] := by
  have hstart := startAll_leads caller { env with documentWrite := false, pendingWrites := [] }
    h.transport (h.held hd) env.pendingWrites []
  rw [List.append_nil] at hstart
  exact hstart.andThen (fun env' _ _ => drain_leads caller env' []) (.inl rfl)

/-- Telling the document ready is done by steps. -/
theorem documentReady_leads (caller : Caller) (h : env.Retrieving) :
    Leads caller env [] [] (env.documentReady caller) [] := by
  by_cases hd : env.documentWrite = true
  · by_cases hc : env.canStart caller = true
    · rw [documentReady_of_held hd hc]
      have hrelease := fun log => Step.release env [] log
      rw [List.append_nil] at hrelease
      exact .after hrelease (release_leads caller h hd)
    · rw [Bool.not_eq_true] at hc
      have hrefused : env.documentReady caller = (.error .noEventLoop, env) := by
        simp [documentReady, hd, hc]
      rw [hrefused]
      exact .refused hc []
  · have hnothing : env.documentReady caller = (.ok (), env) := by
      simp [documentReady, hd]
    rw [hnothing]
    exact .nothing caller env []

/-- The document is ready when it was told so inside an event loop. -/
theorem documentWrite_documentReady (h : env.Retrieving) :
    (env.documentReady .insideEventLoop).2.documentWrite = false := by
  by_cases hd : env.documentWrite = true
  · rw [documentReady_of_held hd env.canStart_insideEventLoop]
    exact (release_leads .insideEventLoop h hd).kept.released rfl
  · have hnothing : env.documentReady .insideEventLoop = (.ok (), env) := by
      simp [documentReady, hd]
    rw [hnothing]
    simpa using hd

/-- Introducing a new module is done by steps. -/
theorem introduce_leads (caller : Caller) (h : env.Retrieving) (path : String)
    (new : env.store.get? (env.specFor path).id = none) :
    Leads caller env [] [path]
      ({ env with store := (env.store.ensure (env.specFor path)).2 }.introduce (env.specFor path))
      [] := by
  have hregister := fun log => Step.register env [] log path new
  rw [List.nil_append] at hregister
  refine .afterAsking hregister ?_
  -- From here on the environment is the one with the module registered and enqueued.
  have hbody : ∀ e : Environment, e.transport ≠ .none →
      Leads caller e [env.specFor path] []
        (if e.documentWrite then
          (.ok (), { e with pendingWrites := e.pendingWrites ++ [env.specFor path] })
        else e.start (env.specFor path)) [] := by
    intro e ht
    split
    · rename_i hd
      exact .after (fun log => .hold e [] log _ hd) (.nothing caller _ [])
    · exact start_leads caller ht _ []
  unfold introduce
  cases env.config.debug with
  | false => exact hbody _ h.transport
  | true =>
    refine .after (fun log => .announce _ _ log .info ("load: " ++ (env.specFor path).id)) ?_
    exact hbody _ h.transport

/-- A module that is known is not registered again. -/
theorem register_cons_known (env : Environment) {path : String} (paths : List String)
    (h : env.store.get? (env.specFor path).id ≠ none) :
    env.register (path :: paths) = env.register paths := by
  obtain ⟨record, hr⟩ := Option.ne_none_iff_exists'.1 h
  have hensure : env.store.ensure (env.specFor path) = (false, env.store) := by
    simp [ModuleStore.ensure, hr]
  simp only [register, hensure]

/-- A new module is introduced before the others are registered. -/
theorem register_cons_new (env : Environment) {path : String} (paths : List String)
    (h : env.store.get? (env.specFor path).id = none) :
    env.register (path :: paths) =
      andThen ({ env with store := (env.store.ensure (env.specFor path)).2 }.introduce
        (env.specFor path)) (·.register paths) := by
  have hensure : env.store.ensure (env.specFor path) =
      (true, (env.store.ensure (env.specFor path)).2) := by
    simp [ModuleStore.ensure, h]
  rw [register, hensure]
  rfl

/-- Registering modules is done by steps. -/
theorem register_leads (caller : Caller) (h : env.Retrieving) (paths : List String) :
    Leads caller env [] paths (env.register paths) [] := by
  induction paths generalizing env with
  | nil => exact .nothing caller env []
  | cons path paths ih =>
    by_cases hnew : env.store.get? (env.specFor path).id = none
    · rw [register_cons_new env paths hnew]
      refine (introduce_leads caller h path hnew).andThen ?_ (.inl rfl)
      intro env' _ hk
      exact ih (h.kept hk)
    · rw [register_cons_known env paths hnew]
      exact .afterAsking (fun log => .skip env [] log path hnew) (ih h)

/-- Loading on a host that retrieves is done by steps. -/
theorem retrieveAll_leads (caller : Caller) (h : env.Retrieving) (paths : List String) :
    Leads caller env [] paths (env.retrieveAll caller paths) [] := by
  by_cases hc : (!env.documentWrite && !env.canStart caller) = true
  · rw [retrieveAll, if_pos hc]
    refine .refused ?_ []
    simp only [Bool.and_eq_true, Bool.not_eq_true'] at hc
    exact hc.2
  · have hbody : env.retrieveAll caller paths = andThen (env.register paths) drain := by
      rw [retrieveAll, if_neg hc]
      rfl
    have hall := (register_leads caller h paths).andThen
      (fun env' _ _ => drain_leads caller env' []) (.inl rfl)
    rw [List.append_nil] at hall
    rw [hbody]
    exact hall

/-- Loading is done by steps. -/
theorem loadWith_leads (caller : Caller) (h : env.Retrieving) (paths : List String)
    (atOnce : Bool) : Leads caller env [] paths (env.loadWith caller paths atOnce) [] := by
  unfold loadWith
  rw [h.behavior]
  simp only
  split
  · show Leads caller env [] ([] ++ paths)
      (andThen (env.documentReady caller) (·.retrieveAll caller paths)) []
    refine (documentReady_leads caller h).andThen ?_ (.inl rfl)
    intro env' _ hk
    exact retrieveAll_leads caller (h.kept hk) paths
  · exact retrieveAll_leads caller h paths

/-- Waiting is a step. -/
theorem await_leads (caller : Caller) (env : Environment)
    {outcome : Except LoaderError Unit × Environment} {left : List ModuleSpec}
    (h : Leads caller env.await [] [] outcome left) : Leads caller env [] [] outcome left :=
  h.after fun log => .await env [] log

/-- Waiting for all retrievals takes account of one arrival after the other. -/
theorem settleAll_leads (caller : Caller) (env : Environment) :
    Leads caller env [] [] env.settleAll [] := by
  fun_induction settleAll env with
  | case1 env h => exact .nothing caller env []
  | case2 env h harr => exact await_leads caller env (.nothing caller _ [])
  | case3 env h arrival rest harr e env' hr =>
    have hreceive := receive_leads caller env.await [] harr
    rw [hr] at hreceive
    exact await_leads caller env hreceive
  | case4 env h arrival rest harr env' hr ih =>
    have hreceive := receive_leads caller env.await [] harr
    rw [hr] at hreceive
    refine await_leads caller env ?_
    exact hreceive.andThen (fun _ he _ => by cases he; exact ih) (.inl rfl)

/-! ## Settling -/

/-- What settling does before it hands out a report. -/
def settling (env : Environment) : Except LoaderError Unit × Environment :=
  andThen env.drain settleAll

/-- Settling is done by steps. -/
theorem settling_leads (caller : Caller) (env : Environment) :
    Leads caller env [] [] env.settling [] :=
  (drain_leads caller env []).andThen (fun env' _ _ => settleAll_leads caller env') (.inl rfl)

/-- When everything has been taken account of, the report is handed out. -/
theorem settle_of_ok (h : env.settling = (.ok (), env')) :
    env.settle = (.ok env'.reportNow, env'.report.2) := by
  unfold settling andThen at h
  unfold settle
  rcases hd : env.drain with ⟨e | u, mid⟩
  · simp [hd] at h
  · rw [hd] at h
    simp only at h
    simp only [h]
    rfl

/-- Where nothing is under way, the report is handed out at once. -/
theorem settle_of_idle (hf : env.inFlight = 0) (ha : env.schedule.arrived = []) :
    env.settle = (.ok env.reportNow, env.report.2) := by
  have hdrain : env.drain = (.ok (), env) := by rw [drain, ha, receiveAll]
  apply settle_of_ok
  rw [settling, hdrain, ModuleLoader.andThen, settleAll, if_pos hf]

/-- An error ends settling without a report. -/
theorem settle_of_error {e : LoaderError} (h : env.settling = (.error e, env')) :
    env.settle = (.error e, env') := by
  unfold settling andThen at h
  unfold settle
  rcases hd : env.drain with ⟨e' | u, mid⟩
  · rw [hd] at h
    simpa using h
  · rw [hd] at h
    simp only at h
    simp only [h]

/-! ## Runs -/

/-- A loading action is a sequence of steps, and does not fail where loading goes on after failures
and retrievals can be started. -/
theorem perform_steps (h : env.Retrieving) {action : Action} (ha : action.isLoading = true) :
    (∃ asked, ((∃ r, (env.perform action).1 = .ok r) → asked = action.paths) ∧
      ∀ log, Steps ⟨env, [], log⟩ ⟨(env.perform action).2, [],
        (log.asking asked).reporting (reportsOf [(env.perform action).1])⟩) ∧
      (env.profile.policy = .failForward → action.caller = .insideEventLoop →
        ∃ r, (env.perform action).1 = .ok r) := by
  have hunreported : ∀ {caller : Caller} {paths : List String}
      {outcome : Except LoaderError Unit × Environment}, Leads caller env [] paths outcome [] →
      (∃ asked, ((∃ r, (unreported outcome).1 = .ok r) → asked = paths) ∧
        ∀ log, Steps ⟨env, [], log⟩ ⟨(unreported outcome).2, [],
          (log.asking asked).reporting (reportsOf [(unreported outcome).1])⟩) ∧
        (env.profile.policy = .failForward → caller = .insideEventLoop →
          ∃ r, (unreported outcome).1 = .ok r) := by
    intro caller paths outcome hl
    obtain ⟨asked, hasked, hsteps⟩ := hl.steps
    have hnone : reportsOf [(unreported outcome).1] = [] := by
      rcases outcome with ⟨_ | _, _⟩ <;> rfl
    refine ⟨⟨asked, ?_, ?_⟩, fun hf hc => ?_⟩
    · rintro ⟨r, hr⟩
      refine hasked ?_
      rcases outcome with ⟨e | u, env'⟩
      · cases hr
      · rfl
    · intro log
      rw [hnone, Log.reporting_nil]
      exact hsteps log
    · rw [unreported, hl.ok hf hc]
      exact ⟨none, rfl⟩
  cases action with
  | load caller paths => exact hunreported (loadWith_leads caller h paths env.config.forceAsync)
  | loadWith caller paths atOnce => exact hunreported (loadWith_leads caller h paths atOnce)
  | documentReady caller => exact hunreported (documentReady_leads caller h)
  | settle =>
    have hl := settling_leads .insideEventLoop env
    obtain ⟨asked, hasked, hsteps⟩ := hl.steps
    rcases hs : env.settling with ⟨e | u, env'⟩
    · rw [hs] at hl hsteps
      rw [perform, settle_of_error hs]
      refine ⟨⟨asked, ?_, fun log => ?_⟩, fun hf _ => nomatch hl.ok hf rfl⟩
      · rintro ⟨r, hr⟩
        cases hr
      · simpa [reportsOf, Except.map] using hsteps log
    · rw [hs] at hasked hsteps
      rw [perform, settle_of_ok hs]
      refine ⟨⟨asked, fun _ => hasked rfl, fun log => ?_⟩, fun _ _ => ⟨_, rfl⟩⟩
      exact (hsteps log).tail (.report env' [] _)
  | turn n =>
    refine ⟨⟨[], fun _ => rfl, fun log => ?_⟩, fun _ _ => ⟨none, rfl⟩⟩
    have hnone : reportsOf [(env.perform (.turn n)).1] = [] := rfl
    rw [hnone, Log.reporting_nil, Log.asking_nil]
    exact .single (.turn env [] log n)
  | rouse n =>
    refine ⟨⟨[], fun _ => rfl, fun log => ?_⟩, fun _ _ => ⟨none, rfl⟩⟩
    have hnone : reportsOf [(env.perform (.rouse n)).1] = [] := rfl
    rw [hnone, Log.reporting_nil, Log.asking_nil]
    exact .single (.rouse env [] log n)
  | setLoaded | evalLoad | supply => cases ha

/-- A loading action keeps what no step changes. -/
theorem Retrieving.kept_perform (h : env.Retrieving) {action : Action}
    (ha : action.isLoading = true) : env.Kept (env.perform action).2 := by
  obtain ⟨⟨asked, -, hsteps⟩, -⟩ := perform_steps h ha
  exact (hsteps .empty).kept

/-- The reports of answers are that of the first, if it is one, and those of the others. -/
theorem reportsOf_cons (answer : Except LoaderError (Option LoadReport))
    (answers : List (Except LoaderError (Option LoadReport))) :
    reportsOf (answer :: answers) = reportsOf [answer] ++ reportsOf answers := by
  rw [reportsOf, reportsOf, reportsOf, ← List.filterMap_append, List.singleton_append]

/-- A run does one thing and then the others. -/
theorem run_cons (env : Environment) (action : Action) (actions : List Action) :
    env.run (action :: actions) =
      ((env.perform action).1 :: ((env.perform action).2.run actions).1,
        ((env.perform action).2.run actions).2) := rfl

/-- Loading where it goes on after failures and retrievals can be started never fails, and comes to
all paths. -/
theorem run_steps (h : env.Retrieving) (hf : env.profile.policy = .failForward)
    {actions : List Action}
    (hall : ∀ a ∈ actions, a.isLoading = true ∧ a.caller = .insideEventLoop) (log : Log) :
    (∀ answer ∈ (env.run actions).1, ∃ r, answer = .ok r) ∧
      Steps ⟨env, [], log⟩ ⟨(env.run actions).2, [],
        (log.asking (actions.flatMap Action.paths)).reporting (reportsOf (env.run actions).1)⟩ := by
  induction actions generalizing env log with
  | nil =>
    refine ⟨by simp [run], ?_⟩
    simpa [run, reportsOf] using Relation.ReflTransGen.refl
  | cons action actions ih =>
    obtain ⟨hloading, hinside⟩ := hall action List.mem_cons_self
    obtain ⟨⟨asked, hasked, hsteps⟩, hok⟩ := perform_steps h hloading
    obtain ⟨r, hr⟩ := hok hf hinside
    have hpaths : asked = action.paths := hasked ⟨r, hr⟩
    have hk : env.Kept (env.perform action).2 := (hsteps .empty).kept
    have hf' : (env.perform action).2.profile.policy = .failForward := by
      rw [hk.profile]
      exact hf
    obtain ⟨hanswers, hrest⟩ := ih (h.kept hk) hf' (fun a ha => hall a (List.mem_cons_of_mem _ ha))
      ((log.asking asked).reporting (reportsOf [(env.perform action).1]))
    constructor
    · intro answer ha
      rcases List.mem_cons.1 ha with rfl | ha
      · exact ⟨r, hr⟩
      · exact hanswers answer ha
    · rw [Log.asking_reporting, ← reportsOf_cons, hpaths, ← List.flatMap_cons] at hrest
      rw [hpaths] at hsteps
      exact (hsteps log).trans hrest

/-- A run in two parts is done part by part. -/
theorem run_append (env : Environment) (actions more : List Action) :
    env.run (actions ++ more) =
      ((env.run actions).1 ++ ((env.run actions).2.run more).1,
        ((env.run actions).2.run more).2) := by
  induction actions generalizing env with
  | nil => rfl
  | cons action actions ih =>
    rw [List.cons_append, run_cons, ih, run_cons]
    rfl

/-- A run that ends with settling ends with the report, from which a new one begins. -/
theorem run_settle (env : Environment) (actions : List Action)
    (h : (env.run actions).2.perform .settle = (.ok (some env'.reportNow), env'.report.2)) :
    ∃ journal, env.run (actions ++ [.settle]) =
      ((env.run actions).1 ++ [.ok (some env'.reportNow)],
        { env' with journal, progress := ⟨[], []⟩ }) := by
  obtain ⟨journal, hreport⟩ := env'.report_frame
  refine ⟨journal, ?_⟩
  rw [run_append, run_cons, h, hreport]
  rfl

end Environment

end ModuleLoader
