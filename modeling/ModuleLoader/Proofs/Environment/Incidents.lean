import ModuleLoader.Proofs.Environment.Diagnosis

/-!
# Failures that occur

A failure occurs where a retrieval that the record waits for comes to one, and where the code of a
module fails: in a flush, or given as such.  Failures are noted here where they occur, by an evaluator
that takes down what fails in it, so that they can be compared with what the loader makes of them.
`Incurs` is the relation between an operation and the failures that occur in its parts.  Main
statements: `Incurs.records`, what an operation writes and answers is what occurred in it, and
`run_incidents`, none of the failures of a run is lost.
-/

set_option autoImplicit false

namespace ModuleLoader

/-! ## Failures with their modules -/

/-- A failure, with the module it is about and the place of that. -/
structure Incident where
  module : String
  location : String
  cause : FailureCause
deriving DecidableEq, Repr

namespace Incident

/-- The diagnostic that tells of a failure. -/
def diagnostic (i : Incident) : Diagnostic :=
  match i.cause with
  | .retrieval failure => ⟨.retrieval, i.module, i.location, failure.message, none, none⟩
  | .evaluation failure =>
    ⟨.evaluation, i.module, i.location, failure.message, failure.line, failure.column⟩

/-- The error that tells of a failure. -/
def error (i : Incident) : LoaderError :=
  match i.cause with
  | .retrieval failure => .retrieval i.module i.location failure
  | .evaluation failure => .evaluation failure

/-- The diagnostic of a failure is about the module of the failure. -/
@[simp] theorem module_diagnostic (i : Incident) : i.diagnostic.module = i.module := by
  unfold diagnostic
  split <;> rfl

end Incident

/-- The last of some diagnostics that is about a module. -/
def lastAbout (module : String) (diagnostics : List Diagnostic) : Option Diagnostic :=
  (diagnostics.filter (·.module == module)).getLast?

/-- The last diagnostic about a module is among the later ones, if one is there. -/
theorem lastAbout_append (module : String) (diagnostics more : List Diagnostic) :
    lastAbout module (diagnostics ++ more) =
      (lastAbout module more).or (lastAbout module diagnostics) := by
  rw [lastAbout, List.filter_append, List.getLast?_append]
  rfl

/-- The last of some failures that is one of a module. -/
def lastOf (module : String) (failures : List EvaluationFailure) : Option EvaluationFailure :=
  (failures.filter (·.module == module)).getLast?

/-- The last failure of a module is among the later ones, if one is there, else the first. -/
theorem lastOf_cons_self (failure : EvaluationFailure) (failures : List EvaluationFailure) :
    lastOf failure.module (failure :: failures) =
      (lastOf failure.module failures).or (some failure) := by
  rw [lastOf, List.filter_cons_of_pos (by simp), ← List.singleton_append,
    List.getLast?_append]
  rfl

/-- The failure of another module is not the last of this one. -/
theorem lastOf_cons_of_ne {module : String} {failure : EvaluationFailure}
    (h : failure.module ≠ module) (failures : List EvaluationFailure) :
    lastOf module (failure :: failures) = lastOf module failures := by
  rw [lastOf, List.filter_cons_of_neg (by simpa using h)]
  rfl

/-- A state that is not terminal may come to a failure. -/
theorem ModuleState.allows_failed (s : ModuleState) (cause : FailureCause) :
    s.allows (.failed cause) = !s.isTerminal := by
  cases s <;> rfl

/-- The failure of a module whose record is in the store. -/
def ModuleStore.incident (s : ModuleStore) (failure : EvaluationFailure) : Incident :=
  ⟨failure.module, (s.location? failure.module).getD failure.module, .evaluation failure⟩

/-- An evaluator that also takes down the failures that occur in it. -/
def Evaluator.recording {σ : Type} (evaluate : Evaluator σ) : Evaluator (σ × List Incident) :=
  fun record code s =>
    match evaluate record code s.1 with
    | (.ok (), state) => (.ok (), state, s.2)
    | (.error failure, state) =>
      (.error failure, state, s.2 ++ [⟨record.id, record.location, .evaluation failure⟩])

namespace Flush

open ModuleStore

variable {σ : Type}

/-- A success adds no failure to those of a flush. -/
theorem failures_noting_ok (f : Flush σ) (id : String) :
    (f.reporting (.noting id (.ok ()))).failures = f.failures := by
  unfold failures reporting
  cases f.outcome <;> rfl

/-- A failure is added to those of a flush that goes on. -/
theorem failures_noting_error {f : Flush σ} {r : FlushReport} (h : f.outcome = .ok r) (id : String)
    (failure : EvaluationFailure) :
    (f.reporting (.noting id (.error failure))).failures = failure :: f.failures := by
  unfold failures reporting
  rw [h]
  rfl

variable (policy : FailurePolicy) {evaluate : Evaluator σ}
  (hnames : ∀ record code state failure state',
    evaluate record code state = (.error failure, state') → failure.module = record.id)

include hnames

/-- Where failures name the module evaluated, what the evaluator takes down is what the flush leaves
to be noted. -/
theorem through_recording (ids : List String) (store : ModuleStore) (state : σ)
    (seen : List Incident) (hk : store.Keyed) :
    through policy evaluate.recording ids store (state, seen) =
      { through policy evaluate ids store state with
        state := ((through policy evaluate ids store state).state,
          seen ++ (through policy evaluate ids store state).failures.map store.incident) } := by
  induction ids generalizing store state seen with
  | nil => simp [through, failures, FlushReport.idle]
  | cons id rest ih =>
    rcases store.settled_or_blocks_or_ready id with hs | hb | ⟨record, code, hr⟩
    · rw [through_settled hs, through_settled hs, ih store state seen hk]
      rfl
    · rw [through_blocks hb, through_blocks hb]
      simp [failures, FlushReport.waitingFor]
    · have hid := hk id record hr.1
      -- The records stay where they are, whatever an evaluation comes to.
      have hincident : ∀ result, (store.conclude id record result).incident = store.incident := by
        intro result
        funext failure
        rw [ModuleStore.incident, (follows_conclude hr result).location?]
        rfl
      rcases he : evaluate record code state with ⟨failure | u, state'⟩
      · have hmodule : failure.module = id := (hnames _ _ _ _ _ he).trans hid
        have hhere : store.incident failure = ⟨record.id, record.location, .evaluation failure⟩ := by
          rw [ModuleStore.incident, hmodule, ModuleStore.location?, hr.1, hid]
          rfl
        have hen : evaluate.recording record code (state, seen) =
            (.error failure, state', seen ++ [store.incident failure]) := by
          simp [Evaluator.recording, he, hhere]
        cases policy with
        | failFast =>
          rw [through_stops hr he, through_stops hr hen]
          rfl
        | failForward =>
          have hkeyed := (follows_conclude hr (.error failure)).keyed hk
          obtain ⟨r, hout⟩ := (through_failForward evaluate rest
            (store.conclude id record (.error failure)) state').1
          rw [through_ready hr he fun _ _ => rfl, through_ready hr hen fun _ _ => rfl,
            ih _ state' _ hkeyed, hincident]
          have hfailures := failures_noting_error hout id failure
          simp only [passing, reporting, failures] at hfailures ⊢
          rw [hfailures]
          simp
      · have hen : evaluate.recording record code (state, seen) = (.ok (), state', seen) := by
          simp [Evaluator.recording, he]
        have hkeyed := (follows_conclude hr (.ok ())).keyed hk
        have hgo : ∀ failure, (Except.ok () : Except EvaluationFailure Unit) = .error failure →
            policy = .failForward := by
          intro failure hfailure
          cases hfailure
        rw [through_ready hr he hgo, through_ready hr hen hgo, ih _ state' seen hkeyed, hincident]
        have hfailures := failures_noting_ok
          (through policy evaluate rest (store.conclude id record (.ok ())) state') id
        simp only [passing, reporting, failures] at hfailures ⊢
        rw [hfailures]

/-- The failures of a flush are about modules that have records. -/
theorem known_of_mem_failures (ids : List String) (store : ModuleStore) (state : σ)
    (hk : store.Keyed) : ∀ failure ∈ (through policy evaluate ids store state).failures,
      store.get? failure.module ≠ none := by
  refine through_induction policy evaluate (motive := fun _ store _ f => store.Keyed →
    ∀ failure ∈ f.failures, store.get? failure.module ≠ none)
    ?drained ?blocked ?settled ?ready ?stops ids store state hk
  case drained => exact fun store state _ => nofun
  case blocked => exact fun id rest store state _ _ => nofun
  case settled => exact fun id rest store state f _ ih hk => ih hk
  case ready =>
    intro id rest store state record code result state' f hr he hgo ih hk failure hf
    rcases mem_failures_reporting hf with rfl | hf
    · rw [hnames _ _ _ _ _ he, hk id record hr.1, hr.1]
      nofun
    · intro hnone
      refine ih ((follows_conclude hr result).keyed hk) failure hf ?_
      exact (follows_conclude hr result).get?_eq_none.2 hnone
  case stops =>
    intro id rest store state record code failure state' hr he hp hk noted hn
    rw [List.mem_singleton.1 hn, hnames _ _ _ _ _ he, hk id record hr.1, hr.1]
    nofun

/-- A failed record was there before a flush, or its cause is the last failure that the flush leaves
to be noted of the module. -/
theorem cause_of_failed (ids : List String) (store : ModuleStore) (state : σ) (hk : store.Keyed)
    {id : String} {record : ModuleRecord} {cause : FailureCause}
    (hr : (through policy evaluate ids store state).store.get? id = some record)
    (hs : record.state = .failed cause) :
    (lastOf id (through policy evaluate ids store state).failures = none ∧
        store.get? id = some record) ∨
      ∃ failure, lastOf id (through policy evaluate ids store state).failures = some failure ∧
        cause = .evaluation failure := by
  refine (through_induction policy evaluate (motive := fun _ store _ f => store.Keyed →
    (policy = .failForward → ∃ r, f.outcome = .ok r) ∧ ∀ id record cause,
      f.store.get? id = some record → record.state = .failed cause →
        (lastOf id f.failures = none ∧ store.get? id = some record) ∨
          ∃ failure, lastOf id f.failures = some failure ∧ cause = .evaluation failure)
    ?drained ?blocked ?settled ?ready ?stops ids store state hk).2 id record cause hr hs
  case drained =>
    exact fun store state _ => ⟨fun _ => ⟨_, rfl⟩, fun id record cause hr _ => .inl ⟨rfl, hr⟩⟩
  case blocked =>
    exact fun other rest store state _ _ =>
      ⟨fun _ => ⟨_, rfl⟩, fun id record cause hr _ => .inl ⟨rfl, hr⟩⟩
  case settled => exact fun other rest store state f _ ih hk => ih hk
  case ready =>
    intro other rest store state before code result state' f hready he hgo ih hk
    obtain ⟨hok, hcause⟩ := ih ((follows_conclude hready result).keyed hk)
    refine ⟨fun hp => ?_, fun id record cause hr hs => ?_⟩
    · obtain ⟨r, hout⟩ := hok hp
      exact ⟨r.noting other result, by simp [passing, reporting, hout, Except.map]⟩
    -- Where nothing further is noted of the module, its record is as it was concluded.
    cases result with
    | ok u =>
      have hsame : (f.reporting (.noting other (.ok ()))).passing.failures = f.failures :=
        failures_noting_ok f other
      rw [hsame]
      rcases hcause id record cause hr hs with ⟨hnone, hg⟩ | hsome
      · by_cases heq : id = other
        · rw [heq, conclude, Table.get?_set_self] at hg
          cases hg
          cases hs
        · rw [get?_conclude_of_ne store before _ heq] at hg
          exact .inl ⟨hnone, hg⟩
      · exact .inr hsome
    | error failure =>
      obtain ⟨r, hout⟩ := hok (hgo failure rfl)
      have hmodule : failure.module = other :=
        (hnames _ _ _ _ _ he).trans (hk other before hready.1)
      have hcons : (f.reporting (.noting other (.error failure))).passing.failures =
          failure :: f.failures := failures_noting_error hout other failure
      rw [hcons]
      by_cases heq : id = other
      · rw [heq, ← hmodule, lastOf_cons_self, hmodule, ← heq]
        rcases hcause id record cause hr hs with ⟨hnone, hg⟩ | ⟨later, hlater, hc⟩
        · rw [heq, conclude, Table.get?_set_self] at hg
          cases hg
          cases hs
          exact .inr ⟨failure, by rw [hnone]; rfl, rfl⟩
        · exact .inr ⟨later, by rw [hlater]; rfl, hc⟩
      · rw [lastOf_cons_of_ne (by rw [hmodule]; exact Ne.symm heq),
          ← get?_conclude_of_ne store before (.error failure) heq]
        exact hcause id record cause hr hs
  case stops =>
    intro other rest store state before code failure state' hready he hp hk
    have hmodule : failure.module = other :=
      (hnames _ _ _ _ _ he).trans (hk other before hready.1)
    refine ⟨fun hf => (by rw [hp] at hf; cases hf), fun id record cause hr hs => ?_⟩
    by_cases heq : id = other
    · rw [heq, conclude, Table.get?_set_self] at hr
      cases hr
      cases hs
      refine .inr ⟨failure, ?_, rfl⟩
      rw [heq, ← hmodule]
      exact lastOf_cons_self failure []
    · rw [get?_conclude_of_ne store before _ heq] at hr
      exact .inl ⟨lastOf_cons_of_ne (by rw [hmodule]; exact Ne.symm heq) [], hr⟩

omit hnames

/-- A flush that is to stop at a failure leaves none to be noted, unless it was stopped by it. -/
theorem failures_of_failFast (ids : List String) (store : ModuleStore) (state : σ)
    (hp : policy = .failFast) {r : FlushReport}
    (h : (through policy evaluate ids store state).outcome = .ok r) : r.failed = [] := by
  refine through_induction policy evaluate (motive := fun _ _ _ f =>
    ∀ r, f.outcome = .ok r → r.failed = []) ?drained ?blocked ?settled ?ready ?stops ids store state
    r h
  case drained =>
    intro store state r hr
    cases hr
    rfl
  case blocked =>
    intro id rest store state _ r hr
    cases hr
    rfl
  case settled => exact fun id rest store state f _ ih => ih
  case ready =>
    intro id rest store state record code result state' f hr he hgo ih r hout
    obtain ⟨r', hr', rfl⟩ := ok_of_reporting hout
    cases result with
    | ok u => exact ih r' hr'
    | error failure =>
      have hforward := hgo failure rfl
      rw [hp] at hforward
      cases hforward
  case stops =>
    intro id rest store state record code failure state' hr he hp r hout
    cases hout

end Flush

namespace Environment

/-! ## What occurs in one part of an operation -/

/-- What fails in a flush, as the evaluator itself takes it down. -/
def flushing (env : Environment) : List Incident :=
  (Flush.through env.profile.policy (evaluator env.config.wrapOptions).recording env.order.pending
    env.store (env.layer, [])).state.2

/-- What fails when a retrieval comes to something: it counts as long as the module has not come to
an end on another way. -/
def arriving (env : Environment) (id : String) : Except RetrievalFailure String → List Incident
  | .ok _ => []
  | .error failure =>
    match env.store.get? id with
    | some record =>
      if record.state.isTerminal then [] else [⟨id, record.location, .retrieval failure⟩]
    | none => []

/-- What fails when a retrieval is taken account of. -/
def completing (env : Environment) (id : String) (result : Except RetrievalFailure String) :
    List Incident :=
  env.arriving id result ++
    if env.stopsAt id result then [] else (env.noteArrival id result).flushing

/-- What fails when given code is evaluated. -/
def evaluating (env : Environment) (path : String) (hasSourceMap : Bool) (code : String) :
    List Incident :=
  if !env.acceptsCode then []
  else
    match env.outcomeOf path hasSourceMap code with
    | .ok () => { env with
        layer := env.layerAfter path hasSourceMap code
        store := env.store.force path .evaluated }.flushing
    | .error failure => [⟨path, (env.store.location? path).getD path, .evaluation failure⟩]

/-- An outcome comes about by parts of operations that follow each other, and these are the failures
that occur in the parts. -/
inductive Incurs : Environment → List Incident → Except LoaderError Unit × Environment → Prop where
  | aside {env env' : Environment} (alike : env.Alike env') : Incurs env [] (.ok (), env')
  | refused (env : Environment) {e : LoaderError} (unnamed : e.module? = none) :
      Incurs env [] (.error e, env)
  | register (env : Environment) (path : String)
      (new : env.store.get? (env.specFor path).id = none) :
      Incurs env [] (.ok (), env.registered path)
  | setLoaded (env : Environment) (id : String) : Incurs env [] (.ok (), env.setLoaded id)
  | release (env : Environment) : Incurs env [] (.ok (), env.released)
  | complete (env : Environment) (id : String) (result : Except RetrievalFailure String) :
      Incurs env (env.completing id result) (env.complete id result)
  | evalLoad (env : Environment) (path : String) (hasSourceMap : Bool) (code : String) :
      Incurs env (env.evaluating path hasSourceMap code) (env.evalLoad path hasSourceMap code)
  | trans {env mid : Environment} {first more : List Incident}
      {outcome : Except LoaderError Unit × Environment} (before : Incurs env first (.ok (), mid))
      (after : Incurs mid more outcome) : Incurs env (first ++ more) outcome

/-- Every operation is composed of parts, so that what fails in it is known. -/
theorem composes_incurs : Composes fun env outcome => ∃ incidents, Incurs env incidents outcome where
  aside ha := ⟨[], .aside ha⟩
  refused env _ he := ⟨[], .refused env he⟩
  register env path new := ⟨[], .register env path new⟩
  setLoaded env id := ⟨[], .setLoaded env id⟩
  complete env id result := ⟨_, .complete env id result⟩
  trans := by
    rintro env mid outcome ⟨first, hfirst⟩ ⟨more, hmore⟩
    exact ⟨first ++ more, hfirst.trans hmore⟩

/-! ## What is written of it -/

/-- Every failed record is told of by the last diagnostic of its module. -/
structure Recorded (env : Environment) : Prop where
  keyed : env.store.Keyed
  last : ∀ id record cause, env.store.get? id = some record → record.state = .failed cause →
    lastAbout id env.journal.diagnostics = some (Incident.diagnostic ⟨id, record.location, cause⟩)

/-- The journal and the progress have grown by just what is told of some failures. -/
structure Notes (env : Environment) (incidents : List Incident) (env' : Environment) : Prop where
  config : env'.config = env.config
  recorded : env'.Recorded
  diagnostics : env'.journal.diagnostics =
    env.journal.diagnostics ++ incidents.map Incident.diagnostic
  failed : env'.progress.failed = env.progress.failed ++ incidents.map (·.module)

/-- Failures are noted, and answered: where loading stops at failures there is at most one, and it is
the answer; and no error names a module in which none occurred. -/
structure Records (env : Environment) (incidents : List Incident)
    (outcome : Except LoaderError Unit × Environment) : Prop where
  notes : Notes env incidents outcome.2
  answer : env.profile.policy = .failFast →
    incidents = [] ∨ ∃ i, incidents = [i] ∧ outcome.1 = .error i.error
  error : ∀ e, outcome.1 = .error e → e.module? ≠ none →
    ∃ earlier i, incidents = earlier ++ [i] ∧ e = i.error

variable {env env' mid : Environment} {incidents more : List Incident}
  {outcome : Except LoaderError Unit × Environment}

/-- Records may change as long as none fails, and nothing else need be told then. -/
theorem Recorded.quiet (h : env.Recorded) (hk : env'.store.Keyed)
    (hd : env'.journal.diagnostics = env.journal.diagnostics)
    (hf : ∀ id record cause, env'.store.get? id = some record → record.state = .failed cause →
      env.store.get? id = some record) : env'.Recorded where
  keyed := hk
  last id record cause hr hs := by
    rw [hd]
    exact h.last id record cause (hf id record cause hr hs) hs

/-- Nothing is told where no record fails and neither the diagnostics nor the failed modules
change. -/
theorem Notes.quiet (h : env'.Recorded) (hc : env'.config = env.config)
    (hd : env'.journal.diagnostics = env.journal.diagnostics)
    (hp : env'.progress.failed = env.progress.failed) : Notes env [] env' where
  config := hc
  recorded := h
  diagnostics := by rw [hd, List.map_nil, List.append_nil]
  failed := by rw [hp, List.map_nil, List.append_nil]

/-- What is told of failures in two stretches is told of all of them. -/
theorem Notes.trans (h : Notes env incidents mid) (hnext : Notes mid more env') :
    Notes env (incidents ++ more) env' where
  config := hnext.config.trans h.config
  recorded := hnext.recorded
  diagnostics := by
    rw [hnext.diagnostics, h.diagnostics, List.append_assoc, ← List.map_append]
  failed := by
    rw [hnext.failed, h.failed, List.append_assoc, ← List.map_append]

/-- Telling of failures does not change how the host loads. -/
theorem Notes.profile (h : Notes env incidents env') : env'.profile = env.profile := by
  unfold Environment.profile host
  rw [h.config]

/-- An operation in which nothing fails answers without an error. -/
theorem Records.quiet (h : Notes env [] env') : Records env [] (.ok (), env') where
  notes := h
  answer _ := .inl rfl
  error := nofun

/-- What follows a part without an error may fail, but where loading stops at failures nothing has
failed before. -/
theorem Records.trans (h : Records env incidents (.ok (), mid)) (hnext : Records mid more outcome) :
    Records env (incidents ++ more) outcome where
  notes := h.notes.trans hnext.notes
  answer hp := by
    rcases h.answer hp with hnone | ⟨i, -, he⟩
    · rw [hnone, List.nil_append]
      refine hnext.answer ?_
      rw [h.notes.profile]
      exact hp
    · cases he
  error e he hm := by
    obtain ⟨earlier, i, hmore, heq⟩ := hnext.error e he hm
    exact ⟨incidents ++ earlier, i, by rw [hmore, List.append_assoc], heq⟩

/-! ### Flushes -/

/-- The failure of an evaluation names the module evaluated. -/
theorem module_evaluator (options : Namespace.WrapOptions) (record : ModuleRecord) (code : String)
    (layer : Namespace.Layer) (failure : EvaluationFailure) (layer' : Namespace.Layer)
    (h : evaluator options record code layer = (.error failure, layer')) :
    failure.module = record.id := Namespace.Layer.module_of_loadModule h

/-- What fails in a flush are the failures it leaves to be noted, with the places of their
modules. -/
theorem flushing_eq (hk : env.store.Keyed) :
    env.flushing = env.orderFlush.failures.map env.store.incident := by
  have h := Flush.through_recording env.profile.policy (module_evaluator env.config.wrapOptions)
    env.order.pending env.store env.layer [] hk
  rw [flushing, h, List.nil_append]
  rfl

/-- The diagnostic that a flush writes of a failure is that of the failure where it occurred. -/
theorem diagnosis_flush (hk : env.store.Keyed) {failure : EvaluationFailure}
    (hf : failure ∈ env.orderFlush.failures) :
    env.flush.2.diagnosis failure = (env.store.incident failure).diagnostic := by
  have hknown := Flush.known_of_mem_failures env.profile.policy
    (module_evaluator env.config.wrapOptions) env.order.pending env.store env.layer hk failure hf
  obtain ⟨record, hr⟩ := Option.ne_none_iff_exists'.1 hknown
  have hlocation : env.store.location? failure.module = some record.location := by
    rw [ModuleStore.location?, hr]
    rfl
  rw [diagnosis, locationOf_eq, env.follows_flush.location?, ModuleStore.incident, hlocation]
  rfl

/-- The last diagnostic about a module is that of its last failure. -/
theorem lastAbout_map_incident (s : ModuleStore) (id : String) (failures : List EvaluationFailure) :
    lastAbout id ((failures.map s.incident).map Incident.diagnostic) =
      (lastOf id failures).map fun failure => (s.incident failure).diagnostic := by
  rw [lastAbout, lastOf, List.map_map, List.filter_map, List.getLast?_map]
  rfl

/-- A flush tells of what fails in it. -/
theorem Recorded.flush_notes (h : env.Recorded) : Notes env env.flushing env.flush.2 := by
  have hdiagnostics : env.flush.2.journal.diagnostics =
      env.journal.diagnostics ++ env.flushing.map Incident.diagnostic := by
    rw [diagnostics_flush, flushing_eq h.keyed, List.map_map]
    exact congrArg _ (List.map_congr_left fun failure hf => diagnosis_flush h.keyed hf)
  have hfollows := env.follows_flush
  have hstore : env.flush.2.store = env.orderFlush.store := by
    obtain ⟨journal, progress, hframe⟩ := env.flush_frame
    rw [hframe]
  have hconfig : env.flush.2.config = env.config := by
    obtain ⟨journal, progress, hframe⟩ := env.flush_frame
    rw [hframe]
  refine ⟨hconfig, ⟨hfollows.keyed h.keyed, fun id record cause hr hs => ?_⟩, hdiagnostics, ?_⟩
  · rw [hdiagnostics, lastAbout_append, flushing_eq h.keyed, lastAbout_map_incident]
    have hlocation : env.store.location? id = some record.location := by
      rw [← hfollows.location?, ModuleStore.location?, hr]
      rfl
    rw [hstore] at hr
    rcases Flush.cause_of_failed env.profile.policy (module_evaluator env.config.wrapOptions)
      env.order.pending env.store env.layer h.keyed hr hs with ⟨hnone, hbefore⟩ | ⟨failure, hsome, hc⟩
    · rw [orderFlush, hnone]
      exact h.last id record cause hbefore hs
    · have hmodule : failure.module = id := by
        have hmem := List.mem_of_getLast? hsome
        simpa using (List.mem_filter.1 hmem).2
      rw [orderFlush, hsome, hc, Option.map_some, ModuleStore.incident, hmodule, hlocation]
      rfl
  · rw [flushing_eq h.keyed, List.map_map]
    unfold Flush.failures
    cases hout : env.orderFlush.outcome with
    | ok r =>
      obtain ⟨-, journal, hflush⟩ := env.flush_of_ok hout
      rw [hflush]
      rfl
    | error failure =>
      obtain ⟨-, journal, hflush⟩ := env.flush_of_error hout
      rw [hflush]
      rfl

/-- A flush tells of what fails in it, and answers with the failure that stopped it. -/
theorem Recorded.flush_records (h : env.Recorded) : Records env env.flushing env.flush := by
  have hfailures := flushing_eq h.keyed
  cases hout : env.orderFlush.outcome with
  | ok r =>
    have hanswer := (env.flush_of_ok hout).1
    refine ⟨h.flush_notes, fun hp => .inl ?_, fun e he => ?_⟩
    · have hnone : env.orderFlush.failures = [] := by
        rw [Flush.failures, hout]
        exact Flush.failures_of_failFast env.profile.policy env.order.pending env.store env.layer hp
          hout
      rw [hfailures, hnone, List.map_nil]
    · rw [hanswer] at he
      cases he
  | error failure =>
    have hanswer := (env.flush_of_error hout).1
    have hone : env.flushing = [env.store.incident failure] := by
      rw [hfailures, Flush.failures, hout]
      rfl
    refine ⟨h.flush_notes, fun _ => .inr ⟨_, hone, hanswer⟩, fun e he _ => ?_⟩
    rw [hanswer] at he
    cases he
    exact ⟨[], _, hone, rfl⟩

/-! ### Retrievals -/

/-- A failed retrieval is taken by the record of the module, unless that has come to an end. -/
theorem arriving_cases (env : Environment) (id : String) (failure : RetrievalFailure) :
    (env.arriving id (.error failure) = [] ∧
      env.store.advance id (.failed (.retrieval failure)) = (false, env.store)) ∨
    ∃ record, env.store.get? id = some record ∧
      env.arriving id (.error failure) = [⟨id, record.location, .retrieval failure⟩] ∧
      env.store.advance id (.failed (.retrieval failure)) =
        (true, env.store.set id { record with state := .failed (.retrieval failure) }) := by
  unfold arriving
  cases hr : env.store.get? id with
  | none => exact .inl ⟨rfl, ModuleStore.advance_of_none hr⟩
  | some record =>
    have hallows := record.state.allows_failed (.retrieval failure)
    cases ht : record.state.isTerminal with
    | true =>
      rw [ht] at hallows
      exact .inl ⟨by simp [ht], ModuleStore.advance_of_not_allows hr hallows⟩
    | false =>
      rw [ht] at hallows
      exact .inr ⟨record, rfl, by simp [ht], ModuleStore.advance_of_allows hr hallows⟩

/-- Noting what a retrieval came to tells of its failure, if it counts. -/
theorem Recorded.noteArrival_notes (h : env.Recorded) (id : String)
    (result : Except RetrievalFailure String) :
    Notes env (env.arriving id result) (env.noteArrival id result) := by
  cases result with
  | ok code =>
    refine .quiet (h.quiet (h.keyed.advance id _) rfl fun other record cause hr hs => ?_) rfl rfl rfl
    by_cases heq : other = id
    · rcases env.store.advance_cases id (.retrieved code) with ha | ⟨before, -, -, ha⟩
      · simpa only [noteArrival, ha] using hr
      · simp only [noteArrival, ha, heq, Table.get?_set_self, Option.some.injEq] at hr
        rw [← hr] at hs
        cases hs
    · exact (env.store.get?_advance_of_ne _ heq).symm.trans hr
  | error failure =>
    rcases env.arriving_cases id failure with ⟨hnone, ha⟩ | ⟨before, hbefore, hone, ha⟩
    · have hsame : env.noteArrival id (.error failure) = env := by
        simp only [noteArrival, ha]
      rw [hnone, hsame]
      exact .quiet h rfl rfl rfl
    · have hlocation : env.locationOf id = before.location := by
        simp only [locationOf, hbefore]
      have hnoted : env.noteArrival id (.error failure) = { env with
          store := env.store.set id { before with state := .failed (.retrieval failure) }
          journal := env.journal.retrieval id before.location failure
          progress := { env.progress with failed := env.progress.failed ++ [id] } } := by
        simp only [noteArrival, ha, noteRetrievalFailure, hlocation]
      rw [hone, hnoted]
      refine ⟨rfl, ⟨h.keyed.set (h.keyed id before hbefore), fun other record cause hr hs => ?_⟩,
        rfl, rfl⟩
      show lastAbout other (env.journal.diagnostics ++ [_]) = _
      rw [lastAbout_append]
      by_cases heq : other = id
      · rw [heq, Table.get?_set_self] at hr
        cases hr
        cases hs
        simp [lastAbout, heq, Incident.diagnostic]
      · rw [Table.get?_set_of_ne _ _ heq] at hr
        rw [h.last other record cause hr hs]
        simp [lastAbout, Ne.symm heq]

/-- Where loading stops at a failed retrieval, the failure itself is the answer. -/
theorem complete_stopping {id : String} {failure : RetrievalFailure}
    (h : env.stopsAt id (.error failure) = true) :
    (env.complete id (.error failure)).1 = .error (.retrieval id (env.locationOf id) failure) ∧
      (env.complete id (.error failure)).2 = env.noteArrival id (.error failure) := by
  obtain ⟨failure', hc⟩ := complete_of_stops h
  refine ⟨?_, by rw [hc]⟩
  unfold stopsAt at h
  rcases env.store.advance_cases id (.failed (.retrieval failure)) with ha | ⟨record, -, -, ha⟩
  · simp [ha] at h
  · have hpolicy : env.profile.policy = .failFast := by simpa [ha] using h
    simp only [complete, ha]
    generalize env.store.set id _ = store
    have hnoted : ({ env with store := store }.noteRetrievalFailure id (env.locationOf id)
        failure).profile.policy = .failFast := hpolicy
    simp only [hnoted]

/-- Taking account of a retrieval tells of what fails in it, and answers with what stops the
loading. -/
theorem Recorded.complete_records (h : env.Recorded) (id : String)
    (result : Except RetrievalFailure String) :
    Records env (env.completing id result) (env.complete id result) := by
  have hnoted := h.noteArrival_notes id result
  unfold completing
  cases hs : env.stopsAt id result with
  | true =>
    rw [if_pos rfl, List.append_nil]
    cases result with
    | ok code => cases hs
    | error failure =>
      rcases env.arriving_cases id failure with ⟨-, ha⟩ | ⟨before, hbefore, hone, -⟩
      · simp [stopsAt, ha] at hs
      · have hlocation : env.locationOf id = before.location := by
          simp only [locationOf, hbefore]
        obtain ⟨hanswer, hstopped⟩ := complete_stopping hs
        rw [hlocation] at hanswer
        rw [hone] at hnoted ⊢
        refine ⟨by rw [hstopped]; exact hnoted, fun _ => .inr ⟨_, rfl, hanswer⟩, fun e he _ => ?_⟩
        rw [hanswer] at he
        cases he
        exact ⟨[], _, rfl, rfl⟩
  | false =>
    rw [if_neg Bool.false_ne_true, complete_of_goesOn hs]
    have hflush := hnoted.recorded.flush_records
    refine ⟨hnoted.trans hflush.notes, fun hp => ?_, fun e he hm => ?_⟩
    · have hnone : env.arriving id result = [] := by
        cases result with
        | ok code => rfl
        | error failure =>
          rcases env.arriving_cases id failure with ⟨hnone, -⟩ | ⟨before, -, -, ha⟩
          · exact hnone
          · simp [stopsAt, ha, hp] at hs
      rw [hnone, List.nil_append]
      refine hflush.answer ?_
      rw [hnoted.profile]
      exact hp
    · obtain ⟨earlier, i, hlast, heq⟩ := hflush.error e he hm
      exact ⟨env.arriving id result ++ earlier, i, by rw [hlast, List.append_assoc], heq⟩

/-! ### Given code -/

/-- Given code that succeeds leaves nothing to tell. -/
theorem Recorded.given_evaluated (h : env.Recorded) {journal : Journal}
    (hj : journal.diagnostics = env.journal.diagnostics) (path : String)
    (layer : Namespace.Layer) (evaluated : List String) : Notes env [] { env with
      journal, layer
      store := env.store.force path .evaluated
      progress := ⟨evaluated, env.progress.failed⟩ } := by
  refine .quiet (h.quiet (h.keyed.force path _) hj fun other record cause hr hs => ?_) rfl hj rfl
  by_cases heq : other = path
  · rw [heq, ModuleStore.get?_force_self] at hr
    cases hr
    cases hs
  · exact (env.store.get?_force_of_ne _ heq).symm.trans hr

/-- Given code that fails is told of at the place of its record, which may be a new one. -/
theorem Recorded.given_failed (h : env.Recorded) {journal : Journal}
    (hj : journal.diagnostics = env.journal.diagnostics) {path code : String} {hasSourceMap : Bool}
    {failure : EvaluationFailure} (hout : env.outcomeOf path hasSourceMap code = .error failure) :
    Notes env [⟨path, (env.store.location? path).getD path, .evaluation failure⟩]
      ((env.settledBy journal path hasSourceMap code).noteEvaluationFailure failure) := by
  have hmodule : failure.module = path := Namespace.Layer.module_of_loadModule (Prod.ext hout rfl)
  have hforced : (env.store.force path (.failed (.evaluation failure))).location? path =
      some ((env.store.location? path).getD path) := by
    rw [ModuleStore.location?_force, if_pos rfl]
  have hstore : ((env.settledBy journal path hasSourceMap code).noteEvaluationFailure
      failure).store = env.store.force path (.failed (.evaluation failure)) := by
    show env.store.force path (.ofOutcome (env.outcomeOf path hasSourceMap code)) = _
    rw [hout]
    rfl
  have hdiagnosis : (env.settledBy journal path hasSourceMap code).diagnosis failure =
      Incident.diagnostic ⟨path, (env.store.location? path).getD path, .evaluation failure⟩ := by
    rw [diagnosis, locationOf_eq, hmodule]
    simp only [settledBy, hout, ModuleState.ofOutcome, hforced]
    rfl
  have hdiagnostics : ((env.settledBy journal path hasSourceMap code).noteEvaluationFailure
      failure).journal.diagnostics = env.journal.diagnostics ++ [Incident.diagnostic
        ⟨path, (env.store.location? path).getD path, .evaluation failure⟩] := by
    rw [diagnostics_noteEvaluationFailure, hdiagnosis]
    exact congrArg (· ++ _) hj
  refine ⟨rfl, ⟨?_, fun other record cause hr hs => ?_⟩, hdiagnostics, ?_⟩
  · rw [hstore]
    exact h.keyed.force path _
  · rw [hdiagnostics, lastAbout_append]
    rw [hstore] at hr
    by_cases heq : other = path
    · have hlocation : record.location = (env.store.location? path).getD path := by
        rw [heq] at hr
        rw [ModuleStore.location?, hr] at hforced
        exact Option.some.inj hforced
      rw [heq, ModuleStore.get?_force_self] at hr
      cases hr
      cases hs
      rw [hlocation]
      simp [lastAbout, heq, Incident.diagnostic]
    · rw [env.store.get?_force_of_ne _ heq] at hr
      rw [h.last other record cause hr hs]
      simp [lastAbout, Incident.diagnostic, Ne.symm heq]
  · show env.progress.failed ++ [failure.module] = _
    rw [hmodule]
    rfl

/-- Evaluating given code tells of what fails in it. -/
theorem Recorded.evalLoad_records (h : env.Recorded) (path : String) (hasSourceMap : Bool)
    (code : String) : Records env (env.evaluating path hasSourceMap code)
      (env.evalLoad path hasSourceMap code) := by
  unfold evaluating
  cases ha : env.acceptsCode with
  | false =>
    have hrefused : env.evalLoad path hasSourceMap code =
        (.error (.unsupported env.host.name "eval_load"), env) := by
      simp [evalLoad, ha]
    rw [hrefused]
    refine ⟨.quiet h rfl rfl rfl, fun _ => .inl rfl, fun e he hm => ?_⟩
    cases he
    exact absurd rfl hm
  | true =>
    obtain ⟨journal, hj, heval⟩ := evalLoad_noted ha path hasSourceMap code
    rw [heval]
    simp only [Bool.not_true, Bool.false_eq_true, if_false]
    cases hout : env.outcomeOf path hasSourceMap code with
    | ok u =>
      have hgiven := h.given_evaluated hj path (env.layerAfter path hasSourceMap code)
        (env.progress.evaluated ++ [path])
      simp only [settledBy, hout]
      exact (Records.quiet hgiven).trans hgiven.recorded.flush_records
    | error failure =>
      have hgiven := h.given_failed hj hout
      cases hp : env.profile.policy with
      | failForward => exact ⟨hgiven, fun hfast => (by rw [hp] at hfast; cases hfast), (by simp)⟩
      | failFast =>
        refine ⟨hgiven, fun _ => .inr ⟨_, rfl, rfl⟩, fun e he _ => ?_⟩
        cases he
        exact ⟨[], _, rfl, rfl⟩

/-! ## Operations -/

/-- What occurs in an operation is noted and answered. -/
theorem Incurs.records (hi : Incurs env incidents outcome) (h : env.Recorded) :
    Records env incidents outcome := by
  induction hi with
  | aside alike =>
    have hkeyed := h.keyed
    rw [← alike.store] at hkeyed
    refine .quiet (.quiet (h.quiet hkeyed alike.diagnostics fun id record cause hr _ => ?_)
      alike.config alike.diagnostics (by rw [alike.progress]))
    rw [← alike.store]
    exact hr
  | refused env unnamed =>
    refine ⟨.quiet h rfl rfl rfl, fun _ => .inl rfl, fun e he hm => ?_⟩
    cases he
    exact absurd unnamed hm
  | register env path new =>
    refine .quiet (.quiet (h.quiet (h.keyed.ensure _) rfl fun id record cause hr hs => ?_) rfl rfl rfl)
    simp only [registered, ModuleStore.get?_ensure] at hr
    split at hr
    · cases hr
      cases hs
    · exact hr
  | setLoaded env id =>
    refine .quiet (.quiet (h.quiet (h.keyed.force id _) rfl fun other record cause hr hs => ?_) rfl rfl
      rfl)
    by_cases heq : other = id
    · simp only [Environment.setLoaded, ModuleStore.markLoaded, heq, ModuleStore.get?_force_self,
        Option.some.injEq] at hr
      rw [← hr] at hs
      cases hs
    · exact (env.store.get?_force_of_ne _ heq).symm.trans hr
  | release env => exact .quiet (.quiet (h.quiet h.keyed rfl fun _ _ _ hr _ => hr) rfl rfl rfl)
  | complete env id result => exact h.complete_records id result
  | evalLoad env path hasSourceMap code => exact h.evalLoad_records path hasSourceMap code
  | trans _ _ ih ih' =>
    have hfirst := ih h
    exact hfirst.trans (ih' hfirst.notes.recorded)

/-- What an action comes to, before a report is handed out. -/
def act (env : Environment) : Action → Except LoaderError Unit × Environment
  | .load caller paths => env.load caller paths
  | .loadWith caller paths atOnce => env.loadWith caller paths atOnce
  | .documentReady caller => env.documentReady caller
  | .setLoaded id => (.ok (), env.setLoaded id)
  | .evalLoad path hasSourceMap code => env.evalLoad path hasSourceMap code
  | .settle => env.settling
  | .turn n => (.ok (), env.turn n)
  | .rouse n => (.ok (), { env with schedule := env.schedule.rouse n })
  | .supply content => (.ok (), env.supply content)

/-- These are the failures that occur in an action. -/
def Suffers (env : Environment) (action : Action) (incidents : List Incident) : Prop :=
  Incurs env incidents (env.act action)

/-- Some failures, or none, occur in every action. -/
theorem exists_suffers (env : Environment) (action : Action) :
    ∃ incidents, env.Suffers action incidents := by
  have hrelease : ∀ env : Environment, ∃ incidents, Incurs env incidents (.ok (), env.released) :=
    fun env => ⟨[], .release env⟩
  cases action with
  | load caller paths => exact composes_incurs.loadWith hrelease env caller paths env.config.forceAsync
  | loadWith caller paths atOnce => exact composes_incurs.loadWith hrelease env caller paths atOnce
  | documentReady caller => exact composes_incurs.documentReady hrelease env caller
  | setLoaded id => exact ⟨[], .setLoaded env id⟩
  | evalLoad path hasSourceMap code => exact ⟨_, .evalLoad env path hasSourceMap code⟩
  | settle => exact composes_incurs.settling env
  | turn n =>
    have haside := env.alike_stir fun schedule medium => schedule.turn medium n
    rw [← turn_eq_stir] at haside
    exact ⟨[], .aside haside⟩
  | rouse n => exact ⟨[], .aside ⟨rfl, rfl, rfl, rfl, rfl, rfl, rfl, rfl⟩⟩
  | supply content =>
    have hsupplied : env.Alike (env.supply content) := by
      obtain ⟨transport, hs, -⟩ := env.supply_frame content
      rw [hs]
      exact ⟨rfl, rfl, rfl, rfl, rfl, rfl, rfl, rfl⟩
    exact ⟨[], .aside hsupplied⟩

/-- An action answers with the error that it comes to, and hands what has failed over to a report,
if it hands out one. -/
theorem perform_act (env : Environment) (action : Action) :
    (∀ e, (env.act action).1 = .error e ↔ (env.perform action).1 = .error e) ∧
    ∃ journal progress, journal.diagnostics = (env.act action).2.journal.diagnostics ∧
      (env.perform action).2 = { (env.act action).2 with journal, progress } ∧
      (reportsOf [(env.perform action).1]).flatMap (·.failed) ++ progress.failed =
        (env.act action).2.progress.failed := by
  have hunreported : ∀ outcome : Except LoaderError Unit × Environment,
      (∀ e, outcome.1 = .error e ↔ (unreported outcome).1 = .error e) ∧
      ∃ journal progress, journal.diagnostics = outcome.2.journal.diagnostics ∧
        (unreported outcome).2 = { outcome.2 with journal, progress } ∧
        (reportsOf [(unreported outcome).1]).flatMap (·.failed) ++ progress.failed =
          outcome.2.progress.failed := by
    rintro ⟨e | u, env'⟩
    · exact ⟨fun e' => by simp [unreported, Except.map], env'.journal, env'.progress, rfl, rfl, rfl⟩
    · exact ⟨fun e' => by simp [unreported, Except.map], env'.journal, env'.progress, rfl, rfl, rfl⟩
  cases action with
  | load caller paths => exact hunreported (env.load caller paths)
  | loadWith caller paths atOnce => exact hunreported (env.loadWith caller paths atOnce)
  | documentReady caller => exact hunreported (env.documentReady caller)
  | evalLoad path hasSourceMap code => exact hunreported (env.evalLoad path hasSourceMap code)
  | setLoaded id => exact hunreported (.ok (), env.setLoaded id)
  | turn n => exact hunreported (.ok (), env.turn n)
  | rouse n => exact hunreported (.ok (), { env with schedule := env.schedule.rouse n })
  | supply content => exact hunreported (.ok (), env.supply content)
  | settle =>
    rw [act, perform]
    rcases hs : env.settling with ⟨e | u, env'⟩
    · rw [settle_of_error hs]
      exact hunreported (.error e, env')
    · have hdiagnostics := env'.diagnostics_report
      obtain ⟨journal, hreport⟩ := env'.report_frame
      rw [hreport] at hdiagnostics
      rw [settle_of_ok hs, hreport]
      exact ⟨fun e => by simp [Except.map], journal, ⟨[], []⟩, hdiagnostics, rfl,
        by simp [reportsOf, Except.map, reportNow]⟩

/-! ## Runs -/

/-- These are the failures that occur in a run of actions, in order. -/
inductive Suffered : Environment → List Action → List Incident → Prop where
  | nil (env : Environment) : Suffered env [] []
  | cons {env : Environment} {action : Action} {actions : List Action}
      {incidents more : List Incident} (first : env.Suffers action incidents)
      (rest : Suffered (env.perform action).2 actions more) :
      Suffered env (action :: actions) (incidents ++ more)

/-- Some failures, or none, occur in every run. -/
theorem exists_suffered (env : Environment) (actions : List Action) :
    ∃ incidents, env.Suffered actions incidents := by
  induction actions generalizing env with
  | nil => exact ⟨[], .nil env⟩
  | cons action actions ih =>
    obtain ⟨incidents, hfirst⟩ := env.exists_suffers action
    obtain ⟨more, hrest⟩ := ih (env.perform action).2
    exact ⟨incidents ++ more, .cons hfirst hrest⟩

/-- What an action leaves behind, with what it hands over to a report put back. -/
theorem Suffers.notes {action : Action} (hi : env.Suffers action incidents) (h : env.Recorded) :
    (env.perform action).2.config = env.config ∧ (env.perform action).2.Recorded ∧
      (env.perform action).2.journal.diagnostics =
        env.journal.diagnostics ++ incidents.map Incident.diagnostic ∧
      (reportsOf [(env.perform action).1]).flatMap (·.failed) ++
        (env.perform action).2.progress.failed =
          env.progress.failed ++ incidents.map (·.module) := by
  have hnotes := (Incurs.records hi h).notes
  obtain ⟨-, journal, progress, hj, henv, hfailed⟩ := env.perform_act action
  rw [henv]
  refine ⟨hnotes.config, ?_, hj.trans hnotes.diagnostics, hfailed.trans hnotes.failed⟩
  exact hnotes.recorded.quiet hnotes.recorded.keyed hj fun _ _ _ hr _ => hr

/-- A run tells of what fails in it, in its diagnostics and in its reports. -/
theorem Suffered.notes {actions : List Action} (hi : env.Suffered actions incidents)
    (h : env.Recorded) :
    (env.run actions).2.config = env.config ∧ (env.run actions).2.Recorded ∧
      (env.run actions).2.journal.diagnostics =
        env.journal.diagnostics ++ incidents.map Incident.diagnostic ∧
      (reportsOf (env.run actions).1).flatMap (·.failed) ++ (env.run actions).2.progress.failed =
        env.progress.failed ++ incidents.map (·.module) := by
  induction hi with
  | nil env => exact ⟨rfl, h, by simp [run], by simp [run, reportsOf]⟩
  | @cons env action actions incidents more hfirst hrest ih =>
    obtain ⟨hconfig, hrecorded, hdiagnostics, hfailed⟩ := hfirst.notes h
    obtain ⟨hconfig', hrecorded', hdiagnostics', hfailed'⟩ := ih hrecorded
    rw [run_cons, reportsOf_cons, List.flatMap_append]
    refine ⟨hconfig'.trans hconfig, hrecorded', ?_, ?_⟩
    · rw [hdiagnostics', hdiagnostics, List.append_assoc, ← List.map_append]
    · rw [List.append_assoc, hfailed', ← List.append_assoc, hfailed, List.append_assoc,
        ← List.map_append]

/-- In a new environment no record has failed. -/
theorem Fresh.recorded (h : env.Fresh) : env.Recorded := by
  have hunknown : ∀ id record, env.store.get? id ≠ some record := by
    intro id record hr
    rw [h.store] at hr
    cases hr
  exact ⟨fun id record hr => absurd hr (hunknown id record),
    fun id record _ hr => absurd hr (hunknown id record)⟩

/-- On every host, whatever is done, the diagnostics are those of the failures that occurred, in
order; the modules they are about are those that the reports, and the one not handed out yet, call
failed; and the last diagnostic of a module that has failed tells of the failure in its record.  Where
loading stops at failures, at most one occurs in an action, and is its answer; and an error that names
a module tells of the last failure that occurred. -/
theorem run_incidents (config : Configuration) (transport : Transport)
    {engine : Script.Engine} (made : Environment) (hmake : make config transport engine = .ok made)
    (specs : List ModuleSpec) (actions : List Action) :
    let env := made.withSpecs specs
    let after := (env.run actions).2
    (∃ incidents, env.Suffered actions incidents) ∧
      (∀ incidents, env.Suffered actions incidents →
        after.journal.diagnostics = incidents.map Incident.diagnostic) ∧
      after.journal.diagnostics.map (·.module) =
        (reportsOf (env.run actions).1).flatMap (·.failed) ++ after.reportNow.failed ∧
      (∀ id record cause, after.store.get? id = some record → record.state = .failed cause →
        lastAbout id after.journal.diagnostics =
          some (Incident.diagnostic ⟨id, record.location, cause⟩)) ∧
      ∀ earlier action later, actions = earlier ++ action :: later →
        ∀ incidents, (env.run earlier).2.Suffers action incidents →
          (config.host.profile.policy = .failFast → incidents = [] ∨ ∃ i, incidents = [i] ∧
            ((env.run earlier).2.perform action).1 = .error i.error) ∧
          ∀ e, ((env.run earlier).2.perform action).1 = .error e → e.module? ≠ none →
            ∃ before i, incidents = before ++ [i] ∧ e = i.error := by
  intro env after
  obtain ⟨hmade, hconfig, -⟩ := fresh_of_make hmake
  have hfresh : env.Fresh := hmade.withSpecs specs
  have hnone : made.journal.diagnostics = [] := diagnostics_of_make hmake
  have hall : ∀ incidents, env.Suffered actions incidents →
      after.journal.diagnostics = incidents.map Incident.diagnostic := by
    intro incidents hi
    obtain ⟨-, -, hdiagnostics, -⟩ := hi.notes hfresh.recorded
    have hbefore : env.journal.diagnostics = [] := hnone
    rw [hdiagnostics, hbefore, List.nil_append]
  obtain ⟨incidents, hi⟩ := env.exists_suffered actions
  obtain ⟨-, hrecorded, -, hfailed⟩ := hi.notes hfresh.recorded
  refine ⟨⟨incidents, hi⟩, hall, ?_, hrecorded.last, ?_⟩
  · rw [hfresh.progress] at hfailed
    rw [hall incidents hi, List.map_map]
    refine Eq.trans ?_ hfailed.symm
    exact List.map_congr_left fun i _ => i.module_diagnostic
  · rintro earlier action later - incidents' hi'
    obtain ⟨before, hbefore⟩ := env.exists_suffered earlier
    obtain ⟨hsame, hhere, -, -⟩ := hbefore.notes hfresh.recorded
    have hrecords := Incurs.records hi' hhere
    have herror := ((env.run earlier).2.perform_act action).1
    refine ⟨fun hp => ?_, fun e he hm => hrecords.error e ((herror e).2 he) hm⟩
    have hpolicy : (env.run earlier).2.profile.policy = .failFast := by
      unfold profile host
      have henv : env.config = config := hconfig
      rw [hsame, henv]
      exact hp
    rcases hrecords.answer hpolicy with hnone | ⟨i, hone, he⟩
    · exact .inl hnone
    · exact .inr ⟨i, hone, (herror _).1 he⟩

/-- Two modules of which the second is offline, and given code that is no script: the first call
stops at the second module, the next one at its own code, and the report calls both failed. -/
theorem run_incidents_offline :
    let config := { Configuration.default with host := .node, aliases := [] }
    let bundle := Bundle.empty.add [("a.js", "")] [] [("b.js", .network "offline")]
    let specs := [ModuleSpec.mk "a" "a.js" false, ⟨"b", "b.js", false⟩]
    let load := Action.load .outsideEventLoop ["a", "b"]
    let actions := [load, .evalLoad "c" false "(", .settle]
    let failure := EvaluationFailure.mk "c" "SyntaxError: Unexpected '('" (some 1) (some 1)
    ∃ made, make config (.serial (.bundle bundle)) = .ok made ∧
      let env := made.withSpecs specs
      let after := (env.run actions).2
      (reportsOf (env.run actions).1).flatMap (·.failed) = ["b", "c"] ∧
        lastAbout "c" after.journal.diagnostics =
          some ⟨.evaluation, "c", "c", failure.message, some 1, some 1⟩ ∧
        ∀ incidents, env.Suffers load incidents →
          ∃ i, incidents = [i] ∧ i.error = .retrieval "b" "b.js" (.network "offline") := by
  intro config bundle specs load actions failure
  obtain ⟨made, hmade, hdiagnostics, hreport, hanswer, hrecord⟩ :
      ∃ made, make config (.serial (.bundle bundle)) = .ok made ∧
      ((made.withSpecs specs).run actions).2.journal.diagnostics.map (·.module) = ["b", "c"] ∧
      ((made.withSpecs specs).run actions).2.reportNow.failed = [] ∧
      ((made.withSpecs specs).perform load).1 =
        .error (.retrieval "b" "b.js" (.network "offline")) ∧
      ((made.withSpecs specs).run actions).2.store.get? "c" =
        some ⟨"c", "c", false, .failed (.evaluation failure)⟩ :=
    ⟨_, rfl, by decide +kernel +revert⟩
  obtain ⟨-, -, hmodules, hlast, hanswers⟩ :=
    run_incidents config (.serial (.bundle bundle)) made hmade specs actions
  rw [hdiagnostics, hreport, List.append_nil] at hmodules
  refine ⟨made, hmade, hmodules.symm, hlast "c" _ _ hrecord rfl, fun incidents hi => ?_⟩
  obtain ⟨hstops, hnamed⟩ := hanswers [] load _ rfl incidents hi
  rcases hstops rfl with hnone | ⟨i, hone, he⟩
  · obtain ⟨before, i, hsome, -⟩ := hnamed _ hanswer nofun
    simp [hnone] at hsome
  · refine ⟨i, hone, ?_⟩
    exact Except.error.inj (he.symm.trans hanswer)

end Environment

end ModuleLoader
