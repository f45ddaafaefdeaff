import ModuleLoader.Proofs.Environment.Fresh

/-!
# When the order is stuck

A flush leaves the order at a module that blocks it, and registering a module never unblocks it.
So the order is at a fixpoint except where the module it waits for is settled and no flush follows.
Counting a module as loaded does so, and so does given code that fails.  Main statement:
`settle_atFixpoint_iff`, after settling, the order is at a fixpoint just when no such action came at
the module where the cursor still stands.
-/

set_option autoImplicit false

namespace ModuleLoader

namespace Flush

open ModuleStore

variable {σ : Type}

/-- A flush passes nothing just when the first module blocks. -/
theorem passed_eq_zero_iff (policy : FailurePolicy) (evaluate : Evaluator σ) (ids : List String)
    (store : ModuleStore) (state : σ) :
    (through policy evaluate ids store state).passed = 0 ↔ ∀ id ∈ ids.head?, store.Blocks id := by
  cases ids with
  | nil => simp [through]
  | cons id rest =>
    rw [List.head?_cons]
    constructor
    · intro hzero other ho
      obtain rfl := Option.mem_some_iff.1 ho
      rcases store.settled_or_blocks_or_ready id with hs | hb | ⟨record, code, hr⟩
      · rw [through_settled hs] at hzero
        cases hzero
      · exact hb
      · obtain ⟨result, state', he⟩ : ∃ result state',
            evaluate record code state = (result, state') := ⟨_, _, rfl⟩
        by_cases hgo : ∀ failure, result = .error failure → policy = .failForward
        · rw [through_ready hr he hgo] at hzero
          cases hzero
        · obtain ⟨failure, rfl, rfl⟩ := stops_of_not_goesOn hgo
          rw [through_stops hr he] at hzero
          cases hzero
    · intro hb
      rw [through_blocks (hb id rfl)]

end Flush

/-! ## Fixpoints -/

/-- The module could not be retrieved. -/
def ModuleStore.Lost (s : ModuleStore) (id : String) : Prop :=
  ∃ record failure, s.get? id = some record ∧ record.state = .failed (.retrieval failure)

namespace Environment

/-- One more flush would change nothing. -/
def AtFixpoint (env : Environment) : Prop := env.flush = (.ok (), env)

/-- The module that the order waits for is settled. -/
def Stuck (env : Environment) : Prop := ∃ id ∈ env.order.pending.head?, env.store.Settled id

/-- What becomes of given code when it is evaluated as a module. -/
def outcomeOf (env : Environment) (path : String) (hasSourceMap : Bool) (code : String) :
    Except EvaluationFailure Unit :=
  (env.layer.loadModule env.config.wrapOptions
    ⟨path, (env.specFor path).location, hasSourceMap⟩ code).1

/-- The layer as the evaluation of given code leaves it. -/
def layerAfter (env : Environment) (path : String) (hasSourceMap : Bool) (code : String) :
    Namespace.Layer :=
  (env.layer.loadModule env.config.wrapOptions
    ⟨path, (env.specFor path).location, hasSourceMap⟩ code).2

/-- An action settles the module that the order waits for, and does not flush. -/
def Strands (env : Environment) : Action → Prop
  | .setLoaded id => env.order.pending.head? = some id
  | .evalLoad path hasSourceMap code =>
    env.order.pending.head? = some path ∧
      ∃ failure, env.outcomeOf path hasSourceMap code = .error failure
  | _ => False

/-- One more flush would change nothing just when the module that the order waits for blocks. -/
theorem atFixpoint_iff (env : Environment) :
    env.AtFixpoint ↔ ∀ id ∈ env.order.pending.head?, env.store.Blocks id := by
  constructor
  · intro h
    obtain ⟨journal, progress, hflush⟩ := env.flush_frame
    have hcursor : env.flush.2.order.cursor = env.order.cursor := by rw [h]
    rw [hflush] at hcursor
    exact (Flush.passed_eq_zero_iff _ _ _ _ _).1 (Nat.add_eq_left.1 hcursor)
  · intro h
    unfold AtFixpoint flush LoadOrder.flush
    cases hp : env.order.pending with
    | nil => simp [Flush.through, FlushReport.idle, noteEvaluated]
    | cons id rest =>
      rw [Flush.through_blocks (h id (by rw [hp]; rfl))]
      simp [FlushReport.waitingFor, noteEvaluated]

/-- A flush moves the cursor of an order that is stuck. -/
theorem Stuck.cursor_flush {env : Environment} (h : env.Stuck) :
    env.order.cursor < env.flush.2.order.cursor := by
  obtain ⟨id, hid, hs⟩ := h
  obtain ⟨journal, progress, hflush⟩ := env.flush_frame
  have hpassed : env.orderFlush.passed ≠ 0 := by
    intro hzero
    exact hs.not_blocks ((Flush.passed_eq_zero_iff _ _ _ _ _).1 hzero id hid)
  rw [hflush]
  exact Nat.lt_add_of_pos_right (Nat.pos_of_ne_zero hpassed)

/-! ## Steps do not strand the order -/

/-- The modules of the order are known, and the cursor stands where a flush has left it, or a settled
module does. -/
structure InLine (env : Environment) : Prop where
  cursor : env.order.cursor ≤ env.order.order.length
  known : ∀ id ∈ env.order.order, env.store.get? id ≠ none
  halted : ∀ id ∈ env.order.pending.head?, env.store.Settled id ∨ env.store.Blocks id

/-- Where the order is in line, one more flush changes nothing just when it is not stuck. -/
theorem InLine.atFixpoint_iff {env : Environment} (h : env.InLine) :
    env.AtFixpoint ↔ ¬ env.Stuck := by
  rw [env.atFixpoint_iff]
  constructor
  · rintro hb ⟨id, hid, hs⟩
    exact hs.not_blocks (hb id hid)
  · intro hs id hid
    exact (h.halted id hid).resolve_left fun hsettled => hs ⟨id, hid, hsettled⟩

/-- The cursor moves on, and the order does not become stuck anew. -/
structure Onward (env env' : Environment) : Prop where
  cursor : env.order.cursor ≤ env'.order.cursor
  stuck : env'.Stuck ↔ env.Stuck ∧ env'.order.cursor = env.order.cursor

/-- What leaves the store and the order as they are leads onward. -/
theorem Onward.of_eq {env env' : Environment} (hs : env'.store = env.store)
    (ho : env'.order = env.order) : env.Onward env' where
  cursor := Nat.le_of_eq (congrArg LoadOrder.cursor ho.symm)
  stuck := by
    unfold Stuck
    rw [hs, ho]
    simp

/-- What leads onward twice leads onward. -/
theorem Onward.trans {env env' env'' : Environment} (h : env.Onward env')
    (h' : env'.Onward env'') : env.Onward env'' where
  cursor := Nat.le_trans h.cursor h'.cursor
  stuck := by
    have hle := h.cursor
    have hle' := h'.cursor
    rw [h'.stuck, h.stuck, and_assoc]
    exact and_congr_right fun _ => by omega

/-- Whether the order is in line depends on the store and the order. -/
theorem InLine.of_eq {env env' : Environment} (h : env.InLine) (hs : env'.store = env.store)
    (ho : env'.order = env.order) : env'.InLine := by
  refine ⟨?_, ?_, ?_⟩
  · rw [ho]
    exact h.cursor
  · rw [hs, ho]
    exact h.known
  · rw [hs, ho]
    exact h.halted

/-- A flush leaves the order at a module that blocks, whatever records have moved before it, as long
as settled modules stay settled. -/
theorem InLine.flush {env mid : Environment} (h : env.InLine)
    (hf : mid.profile.policy = .failForward) (horder : mid.order = env.order)
    (hknown : ∀ id, env.store.get? id ≠ none → mid.store.get? id ≠ none)
    (hsettled : ∀ id, env.store.Settled id → mid.store.Settled id) :
    mid.flush.2.InLine ∧ env.Onward mid.flush.2 := by
  obtain ⟨journal, progress, hflush⟩ := mid.flush_frame
  obtain ⟨hlength, hfollows, -⟩ : mid.orderFlush.passed ≤ mid.order.pending.length ∧
      mid.orderFlush.store.Follows mid.store ∧ _ :=
    Flush.through_standing mid.order.pending mid.store mid.layer
  obtain ⟨-, hend⟩ := Flush.through_failForward (evaluator mid.config.wrapOptions)
    mid.order.pending mid.store mid.layer
  rw [← hf] at hend
  have hpending : mid.flush.2.order.pending = mid.order.pending.drop mid.orderFlush.passed := by
    rw [hflush, LoadOrder.pending, LoadOrder.pending, List.drop_drop]
  -- The flush was not stopped by a failure, so it ended where a module blocks.
  have hblocks : ∀ id ∈ mid.flush.2.order.pending.head?, mid.flush.2.store.Blocks id := by
    rw [hpending, hflush]
    exact hend
  refine ⟨⟨?_, ?_, fun id hid => .inr (hblocks id hid)⟩, ?_, ?_⟩
  · have hcursor := h.cursor
    rw [← horder] at hcursor
    rw [LoadOrder.pending, List.length_drop] at hlength
    rw [hflush]
    simp only
    omega
  · intro id hid hn
    rw [hflush] at hid hn
    simp only [horder] at hid
    exact hknown id (h.known id hid) (hfollows.get?_eq_none.1 hn)
  · rw [hflush, ← horder]
    exact Nat.le_add_right _ _
  · constructor
    · rintro ⟨id, hid, hs⟩
      exact absurd (hblocks id hid) hs.not_blocks
    · rintro ⟨⟨id, hid, hs⟩, hcursor⟩
      have hstuck : mid.Stuck := ⟨id, by rw [horder]; exact hid, hsettled id hs⟩
      have hlt := hstuck.cursor_flush
      rw [hcursor, horder] at hlt
      exact absurd hlt (Nat.lt_irrefl _)

/-- Registering a module does not touch the place where the cursor stands. -/
theorem InLine.register {env env' : Environment} (h : env.InLine) {spec : ModuleSpec}
    (hnew : env.store.get? spec.id = none) (hs : env'.store = (env.store.ensure spec).2)
    (ho : env'.order = env.order.enqueue spec.id) : env'.InLine ∧ env.Onward env' := by
  have hrequested : env'.store.Requested spec.id := by
    refine ⟨.requested spec, ?_, rfl⟩
    rw [hs, ModuleStore.get?_ensure, if_pos ⟨rfl, hnew⟩]
  have hsame : ∀ id ∈ env.order.order, env'.store.get? id = env.store.get? id := by
    intro id hid
    rw [hs, ModuleStore.get?_ensure, if_neg fun hc => h.known id hid hc.2]
  have hpending : env'.order.pending = env.order.pending ++ [spec.id] := by
    rw [ho, LoadOrder.pending, LoadOrder.enqueue, List.drop_append_of_le_length h.cursor]
    rfl
  have hcursor : env'.order.cursor = env.order.cursor := by rw [ho]; rfl
  -- Where the order was drained the cursor now stands at the new module, else where it stood.
  have hhead : (∀ id ∈ env'.order.pending.head?, env'.store.Settled id ∨ env'.store.Blocks id) ∧
      (env'.Stuck ↔ env.Stuck) := by
    unfold Stuck
    rw [hpending]
    cases hp : env.order.pending with
    | nil =>
      simp only [List.nil_append, List.head?_cons, List.head?_nil, Option.mem_some_iff]
      refine ⟨?_, ?_, ?_⟩
      · rintro id rfl
        exact .inr hrequested.blocks
      · rintro ⟨id, rfl, hset⟩
        exact absurd hrequested.blocks hset.not_blocks
      · rintro ⟨id, hid, -⟩
        cases hid
    | cons first rest =>
      have hfirst : env'.store.get? first = env.store.get? first := by
        refine hsame first (List.mem_of_mem_drop (?_ : first ∈ env.order.pending))
        rw [hp]
        exact List.mem_cons_self
      have hhalted := h.halted first (by rw [hp]; rfl)
      simp only [List.cons_append, List.head?_cons, Option.mem_some_iff]
      refine ⟨?_, ?_⟩
      · rintro id rfl
        rw [ModuleStore.Settled.congr hfirst, ModuleStore.Blocks.congr hfirst]
        exact hhalted
      · constructor
        · rintro ⟨id, rfl, hset⟩
          exact ⟨first, rfl, (ModuleStore.Settled.congr hfirst).1 hset⟩
        · rintro ⟨id, rfl, hset⟩
          exact ⟨first, rfl, (ModuleStore.Settled.congr hfirst).2 hset⟩
  refine ⟨⟨?_, ?_, hhead.1⟩, Nat.le_of_eq hcursor.symm, ?_⟩
  · rw [ho]
    simp only [LoadOrder.enqueue, List.length_append]
    exact Nat.le_add_right_of_le h.cursor
  · intro id hid
    rw [ho, LoadOrder.enqueue] at hid
    rcases List.mem_append.1 hid with hid | hid
    · rw [hsame id hid]
      exact h.known id hid
    · obtain ⟨record, hr, -⟩ := hrequested
      rw [List.mem_singleton.1 hid, hr]
      exact Option.some_ne_none record
  · rw [hhead.2, hcursor]
    simp

/-- Settling a module by force leaves the order stuck if the order waits for it. -/
theorem stuck_force {env env' : Environment} {id : String} {result : Except EvaluationFailure Unit}
    (hs : env'.store = env.store.force id (.ofOutcome result)) (ho : env'.order = env.order) :
    env'.Stuck ↔ env.Stuck ∨ env.order.pending.head? = some id := by
  unfold Stuck
  rw [hs, ho]
  constructor
  · rintro ⟨other, hhead, hset⟩
    by_cases he : other = id
    · exact .inr (he ▸ hhead)
    · have hsame := env.store.get?_force_of_ne (.ofOutcome result) he
      exact .inl ⟨other, hhead, (ModuleStore.Settled.congr hsame).1 hset⟩
  · rintro (⟨other, hhead, hset⟩ | hhead)
    · exact ⟨other, hhead, hset.force id result⟩
    · exact ⟨id, hhead, env.store.settled_force id result⟩

/-- The order stays in line when an outcome is forced on a module. -/
theorem InLine.force {env env' : Environment} (h : env.InLine) {id : String}
    {result : Except EvaluationFailure Unit} (hs : env'.store = env.store.force id (.ofOutcome result))
    (ho : env'.order = env.order) : env'.InLine := by
  refine ⟨?_, ?_, ?_⟩
  · rw [ho]
    exact h.cursor
  · intro other hother
    rw [ho] at hother
    rw [hs]
    exact ModuleStore.get?_ne_none_of_force (h.known other hother) id _
  · intro other hother
    rw [ho] at hother
    rw [hs]
    by_cases he : other = id
    · rw [he]
      exact .inl (env.store.settled_force id result)
    · have hsame := env.store.get?_force_of_ne (.ofOutcome result) he
      rw [ModuleStore.Settled.congr hsame, ModuleStore.Blocks.congr hsame]
      exact h.halted other hother

end Environment

namespace Moment

open Environment

/-- A step keeps the order in line and leads onward. -/
theorem Step.onward {m m' : Moment} (h : Step m m') (hf : m.env.profile.policy = .failForward)
    (hl : m.env.InLine) : m'.env.InLine ∧ m.env.Onward m'.env := by
  obtain ⟨content, hc⟩ := m.env.transport.exists_serves
  cases (h.effect hc).2 with
  | moved unmoved due =>
    exact ⟨hl.of_eq unmoved.store unmoved.order, .of_eq unmoved.store unmoved.order⟩
  | registered path new env log due =>
    refine hl.register new ?_ ?_
    · rw [env]
    · rw [env]
  | skipped path known moment =>
    rw [moment]
    exact ⟨hl, .of_eq rfl rfl⟩
  | completed arrival mid unmoved due moment =>
    have hforward : mid.env.profile.policy = .failForward := by
      rw [unmoved.kept.profile]
      exact hf
    obtain ⟨journal, progress, hnote⟩ := mid.env.noteArrival_frame arrival.id arrival.result
    rw [moment, complete_of_failForward hforward]
    refine hl.flush ?_ ?_ ?_ ?_
    · rw [hnote]
      exact hforward
    · rw [hnote]
      exact unmoved.order
    · intro id hid hn
      rw [hnote] at hn
      simp only [unmoved.store, ModuleStore.get?_advance_eq_none] at hn
      exact hid hn
    · intro id hs
      rw [hnote]
      simp only [unmoved.store]
      exact hs.advance _ _

/-- So do any number of steps. -/
theorem Steps.onward {m m' : Moment} (h : Steps m m') (hf : m.env.profile.policy = .failForward)
    (hl : m.env.InLine) : m'.env.InLine ∧ m.env.Onward m'.env := by
  induction h with
  | refl => exact ⟨hl, .of_eq rfl rfl⟩
  | tail hsteps hstep ih =>
    have hk : m.env.Kept _ := Steps.kept hsteps
    have hnext := hstep.onward (by rw [hk.profile]; exact hf) ih.1
    exact ⟨hnext.1, ih.2.trans hnext.2⟩

end Moment

namespace Environment

/-! ## Given code -/

/-- What is announced when debugging changes the journal at most, and no diagnostics. -/
theorem announce_of_debug (env : Environment) (text : String) : ∃ journal,
    journal.diagnostics = env.journal.diagnostics ∧
      (if env.config.debug then env.announce .info text else env) = { env with journal } := by
  cases env.config.debug with
  | false => exact ⟨env.journal, rfl, rfl⟩
  | true => exact ⟨(env.announce .info text).journal, rfl, rfl⟩

/-- A new module takes the last place in the order, which may be announced, and is held back or
started. -/
theorem introduce_eq (env : Environment) (spec : ModuleSpec) : ∃ journal,
    journal.diagnostics = env.journal.diagnostics ∧ env.introduce spec =
      if env.documentWrite then
        (.ok (), { env with
          journal
          order := env.order.enqueue spec.id
          pendingWrites := env.pendingWrites ++ [spec] })
      else { env with journal, order := env.order.enqueue spec.id }.start spec := by
  obtain ⟨journal, hdiagnostics, hannounce⟩ := env.announce_of_debug ("load: " ++ spec.id)
  refine ⟨journal, hdiagnostics, ?_⟩
  simp only [introduce, hannounce]

/-- The environment in which a module is settled by given code, with a journal to write to. -/
def settledBy (env : Environment) (journal : Journal) (path : String) (hasSourceMap : Bool)
    (code : String) : Environment := { env with
  journal
  layer := env.layerAfter path hasSourceMap code
  store := env.store.force path (.ofOutcome (env.outcomeOf path hasSourceMap code)) }

/-- Given code settles its module whatever the state of that was.  A failure is diagnosed in the
environment in which the module is settled; only a success is followed by a flush. -/
theorem evalLoad_noted {env : Environment} (h : env.acceptsCode = true) (path : String)
    (hasSourceMap : Bool) (code : String) : ∃ journal,
    journal.diagnostics = env.journal.diagnostics ∧
    env.evalLoad path hasSourceMap code =
      match env.outcomeOf path hasSourceMap code with
      | .ok () => ((env.settledBy journal path hasSourceMap code).noteEvaluated [path]).flush
      | .error failure => (match env.profile.policy with
          | .failForward => .ok ()
          | .failFast => .error (.evaluation failure),
        (env.settledBy journal path hasSourceMap code).noteEvaluationFailure failure) := by
  obtain ⟨journal, hdiagnostics, hannounce⟩ := env.announce_of_debug ("eval_load: " ++ path)
  have hspec : { env with journal }.specFor path = env.specFor path := rfl
  refine ⟨journal, hdiagnostics, ?_⟩
  rcases hm : env.layer.loadModule env.config.wrapOptions
    ⟨path, (env.specFor path).location, hasSourceMap⟩ code with ⟨answer, layer⟩
  have houtcome : env.outcomeOf path hasSourceMap code = answer := congrArg Prod.fst hm
  have hlayer : env.layerAfter path hasSourceMap code = layer := congrArg Prod.snd hm
  cases answer with
  | ok u =>
    simp only [evalLoad, h, hannounce, Bool.not_true, Bool.false_eq_true, if_false, hspec, hm,
      settledBy, houtcome, hlayer]
    rfl
  | error failure =>
    obtain ⟨noted, hnoted⟩ : ∃ noted, noteEvaluationFailure { env with
        journal, layer, store := env.store.force path (.failed (.evaluation failure)) } failure =
          noted := ⟨_, rfl⟩
    have hsettled :
        (env.settledBy journal path hasSourceMap code).noteEvaluationFailure failure = noted := by
      rw [← hnoted, settledBy, houtcome, hlayer]
      rfl
    have hpolicy : noted.profile.policy = env.profile.policy := by
      rw [← hnoted]
      rfl
    simp only [evalLoad, h, hannounce, Bool.not_true, Bool.false_eq_true, if_false, hspec, hm,
      houtcome, hnoted, hsettled, hpolicy]
    cases env.profile.policy <;> rfl

/-- Given code counts as evaluated or as failed whatever the module's state was; only in the first
case does a flush follow. -/
theorem evalLoad_eq {env : Environment} (h : env.acceptsCode = true) (path : String)
    (hasSourceMap : Bool) (code : String) : ∃ journal,
    env.evalLoad path hasSourceMap code =
      match env.outcomeOf path hasSourceMap code with
      | .ok () => { env with
          journal
          layer := env.layerAfter path hasSourceMap code
          store := env.store.force path .evaluated
          progress := ⟨env.progress.evaluated ++ [path], env.progress.failed⟩ }.flush
      | .error failure => (match env.profile.policy with
          | .failForward => .ok ()
          | .failFast => .error (.evaluation failure), { env with
          journal
          layer := env.layerAfter path hasSourceMap code
          store := env.store.force path (.failed (.evaluation failure))
          progress := ⟨env.progress.evaluated, env.progress.failed ++ [failure.module]⟩ }) := by
  obtain ⟨journal, -, heval⟩ := evalLoad_noted h path hasSourceMap code
  rw [heval]
  cases hout : env.outcomeOf path hasSourceMap code with
  | ok u =>
    refine ⟨journal, ?_⟩
    simp only [settledBy, hout]
    rfl
  | error failure =>
    refine ⟨((env.settledBy journal path hasSourceMap code).noteEvaluationFailure failure).journal, ?_⟩
    simp only [settledBy, hout]
    rfl

/-- A host that retrieves modules takes given code. -/
theorem Retrieving.acceptsCode {env : Environment} (h : env.Retrieving) :
    env.acceptsCode = true := by
  unfold Environment.acceptsCode
  rw [h.behavior]

/-- Given code that succeeds settles its module, and a flush follows. -/
theorem evalLoad_of_ok {env : Environment} (h : env.Retrieving) {path code : String}
    {hasSourceMap : Bool} (hok : env.outcomeOf path hasSourceMap code = .ok ()) :
    ∃ layer journal progress, env.evalLoad path hasSourceMap code = { env with
      layer, journal, progress
      store := env.store.force path (.ofOutcome (.ok ())) }.flush := by
  obtain ⟨journal, heval⟩ := evalLoad_eq h.acceptsCode path hasSourceMap code
  rw [hok] at heval
  exact ⟨_, journal, _, heval⟩

/-- Given code that fails settles its module too, and where loading goes on after failures no flush
follows. -/
theorem evalLoad_of_error {env : Environment} (h : env.Retrieving)
    (hf : env.profile.policy = .failForward) {path code : String} {hasSourceMap : Bool}
    {failure : EvaluationFailure} (herror : env.outcomeOf path hasSourceMap code = .error failure) :
    ∃ layer journal progress, env.evalLoad path hasSourceMap code = (.ok (), { env with
      layer, journal, progress
      store := env.store.force path (.ofOutcome (.error failure)) }) := by
  obtain ⟨journal, heval⟩ := evalLoad_eq h.acceptsCode path hasSourceMap code
  rw [herror, hf] at heval
  exact ⟨_, journal, _, heval⟩

/-! ## Actions -/

/-- What holds of a browser's environment between any two actions. -/
structure Standing (env : Environment) : Prop where
  retrieving : env.Retrieving
  goesOn : env.profile.policy = .failForward
  concurrency : 0 < env.config.maxConcurrency
  flight : env.Flight
  accounted : Moment.Accounted ⟨env, [], .empty⟩
  inLine : env.InLine

/-- What holds between any two actions of a browser holds at the start. -/
theorem Fresh.standing {env : Environment} (h : env.Fresh) (hhost : env.host = .browser) :
    env.Standing := by
  obtain ⟨hretrieving, hforward⟩ := h.browser hhost
  refine ⟨hretrieving, hforward, h.concurrency, h.flight, h.accounted .empty, ?_, ?_, ?_⟩
  · rw [h.order]
    exact Nat.le_refl _
  · rw [h.order]
    nofun
  · rw [h.order]
    nofun

variable {env env' : Environment}

/-- Steps lead from one such environment to another, in which the order is not stuck anew. -/
theorem Standing.steps (h : env.Standing) {log : Log}
    (hs : Moment.Steps ⟨env, [], .empty⟩ ⟨env', [], log⟩) : env'.Standing ∧ env.Onward env' := by
  have hk : env.Kept env' := hs.kept
  obtain ⟨hline, honward⟩ := hs.onward h.goesOn h.inLine
  have haccounted := hs.accounted h.accounted
  refine ⟨⟨h.retrieving.kept hk, ?_, ?_, hs.flight h.flight, ?_, hline⟩, honward⟩
  · rw [hk.profile]
    exact h.goesOn
  · rw [hk.config]
    exact h.concurrency
  · exact haccounted.of_eq .empty rfl rfl rfl

/-- Settling a module by force leads from one such environment to another. -/
theorem Standing.force (h : env.Standing) (id : String) (result : Except EvaluationFailure Unit)
    (layer : Namespace.Layer) (journal : Journal) (progress : Progress) :
    { env with
      layer, journal, progress
      store := env.store.force id (.ofOutcome result) }.Standing where
  retrieving := ⟨h.retrieving.behavior, h.retrieving.transport, h.retrieving.held⟩
  goesOn := h.goesOn
  concurrency := h.concurrency
  flight := ⟨h.flight.permits, h.flight.inFlight, h.flight.alone, h.flight.held⟩
  accounted := (h.accounted.force id result).of_eq .empty rfl rfl rfl
  inLine := @InLine.force env _ h.inLine id result rfl rfl

/-- It holds after a flush. -/
theorem Standing.flush (h : env.Standing) : env.flush.2.Standing := by
  have hline := (h.inLine.flush h.goesOn rfl (fun _ hid => hid) (fun _ hid => hid)).1
  have haccounted := h.accounted.flush
  obtain ⟨journal, progress, hflush⟩ := env.flush_frame
  rw [hflush] at hline haccounted ⊢
  exact ⟨⟨h.retrieving.behavior, h.retrieving.transport, h.retrieving.held⟩, h.goesOn,
    h.concurrency, ⟨h.flight.permits, h.flight.inFlight, h.flight.alone, h.flight.held⟩,
    haccounted, hline⟩

/-- It holds when what code is retrieved from is exchanged. -/
theorem Standing.supply (h : env.Standing) (content : Medium) : (env.supply content).Standing := by
  have hretrieving := h.retrieving.supply content
  have hflight := h.flight.supply content
  have haccounted := h.accounted.supply content
  obtain ⟨transport, hs, -⟩ := env.supply_frame content
  rw [hs] at hretrieving hflight haccounted ⊢
  exact ⟨hretrieving, h.goesOn, h.concurrency, hflight, haccounted, h.inLine.of_eq rfl rfl⟩

/-- Exchanging what code is retrieved from leads onward. -/
theorem onward_supply (env : Environment) (content : Medium) : env.Onward (env.supply content) := by
  obtain ⟨transport, hs, -⟩ := env.supply_frame content
  rw [hs]
  exact .of_eq rfl rfl

/-- The order is stuck after an action just when it was, or the action strands it, and the cursor has
not moved. -/
structure Passes (env : Environment) (action : Action) (env' : Environment) : Prop where
  cursor : env.order.cursor ≤ env'.order.cursor
  stuck : env'.Stuck ↔ (env.Stuck ∨ env.Strands action) ∧ env'.order.cursor = env.order.cursor

/-- An action that leads onward and strands nothing leaves the order as stuck as it was. -/
theorem Onward.passes {action : Action} (h : env.Onward env') (hnot : ¬ env.Strands action) :
    env.Passes action env' where
  cursor := h.cursor
  stuck := by
    rw [h.stuck]
    simp [hnot]

/-- A module settled by force strands the order if the order waits for it. -/
theorem passes_force {action : Action} {id : String}
    {result : Except EvaluationFailure Unit} (hs : env'.store = env.store.force id (.ofOutcome result))
    (ho : env'.order = env.order)
    (hstrands : env.Strands action ↔ env.order.pending.head? = some id) :
    env.Passes action env' where
  cursor := Nat.le_of_eq (congrArg LoadOrder.cursor ho.symm)
  stuck := by
    rw [stuck_force hs ho, hstrands, ho]
    simp

/-- Every action leads from one such environment to another, and only one that strands the order
makes it stuck. -/
theorem Standing.perform (h : env.Standing) (action : Action) :
    (env.perform action).2.Standing ∧ env.Passes action (env.perform action).2 := by
  have hloading : action.isLoading = true → ¬ env.Strands action →
      (env.perform action).2.Standing ∧ env.Passes action (env.perform action).2 := by
    intro hl hnot
    obtain ⟨asked, -, hsteps⟩ := (perform_steps h.retrieving hl).1
    obtain ⟨hstanding, honward⟩ := h.steps (hsteps .empty)
    exact ⟨hstanding, honward.passes hnot⟩
  -- Loading actions are sequences of steps; the others change a record without one.
  cases action with
  | load | loadWith | documentReady | settle | turn | rouse => exact hloading rfl id
  | setLoaded id =>
    exact ⟨h.force id (.ok ()) env.layer env.journal env.progress,
      @passes_force env _ _ id (.ok ()) rfl rfl Iff.rfl⟩
  | evalLoad path hasSourceMap code =>
    cases houtcome : env.outcomeOf path hasSourceMap code with
    | ok u =>
      obtain ⟨layer, journal, progress, heval⟩ := evalLoad_of_ok h.retrieving houtcome
      have hforce := h.force path (.ok ()) layer journal progress
      have hnot : ¬ env.Strands (.evalLoad path hasSourceMap code) := by
        rintro ⟨-, failure, hfailure⟩
        rw [houtcome] at hfailure
        cases hfailure
      have honward := (h.inLine.flush hforce.goesOn rfl
        (fun other hother => ModuleStore.get?_ne_none_of_force hother path _)
        (fun other hother => hother.force path (.ok ()))).2
      change (env.evalLoad path hasSourceMap code).2.Standing ∧
        env.Passes _ (env.evalLoad path hasSourceMap code).2
      rw [heval]
      exact ⟨hforce.flush, honward.passes hnot⟩
    | error failure =>
      obtain ⟨layer, journal, progress, heval⟩ :=
        evalLoad_of_error h.retrieving h.goesOn houtcome
      have hstrands : env.Strands (.evalLoad path hasSourceMap code) ↔
          env.order.pending.head? = some path := and_iff_left ⟨failure, houtcome⟩
      change (env.evalLoad path hasSourceMap code).2.Standing ∧
        env.Passes _ (env.evalLoad path hasSourceMap code).2
      rw [heval]
      exact ⟨h.force path (.error failure) layer journal progress,
        @passes_force env _ _ path (.error failure) rfl rfl hstrands⟩
  | supply content => exact ⟨h.supply content, (env.onward_supply content).passes id⟩

/-! ## Runs -/

/-- Some action has stranded the order at the place where the cursor stands after all of them. -/
def StrandedBy (env : Environment) (actions : List Action) : Prop :=
  ∃ earlier action later, actions = earlier ++ action :: later ∧
    (env.run earlier).2.Strands action ∧
    (env.run actions).2.order.cursor = (env.run earlier).2.order.cursor

/-- Some actions have stranded the order if the first did and the cursor has not moved since, or if
one of the others did. -/
theorem strandedBy_cons (env : Environment) (action : Action) (actions : List Action) :
    env.StrandedBy (action :: actions) ↔
      (env.Strands action ∧ (env.run (action :: actions)).2.order.cursor = env.order.cursor) ∨
        (env.perform action).2.StrandedBy actions := by
  constructor
  · rintro ⟨earlier, stranding, later, heq, hstrands, hcursor⟩
    cases earlier with
    | nil =>
      cases heq
      exact .inl ⟨hstrands, hcursor⟩
    | cons first earlier =>
      cases heq
      exact .inr ⟨earlier, stranding, later, rfl, hstrands, hcursor⟩
  · rintro (⟨hstrands, hcursor⟩ | ⟨earlier, stranding, later, heq, hstrands, hcursor⟩)
    · exact ⟨[], action, actions, rfl, hstrands, hcursor⟩
    · exact ⟨action :: earlier, stranding, later, by rw [heq]; rfl, hstrands, hcursor⟩

/-- The order is stuck after some actions just when it was, and the cursor has not moved, or one of
them has stranded it. -/
theorem Standing.run (h : env.Standing) (actions : List Action) :
    (env.run actions).2.Standing ∧ env.order.cursor ≤ (env.run actions).2.order.cursor ∧
      ((env.run actions).2.Stuck ↔
        (env.Stuck ∧ (env.run actions).2.order.cursor = env.order.cursor) ∨
          env.StrandedBy actions) := by
  induction actions generalizing env with
  | nil =>
    refine ⟨h, Nat.le_refl _, ?_⟩
    constructor
    · exact fun hs => .inl ⟨hs, rfl⟩
    · rintro (⟨hs, -⟩ | ⟨earlier, action, later, heq, -⟩)
      · exact hs
      · simp at heq
  | cons action actions ih =>
    obtain ⟨hperform, hpasses⟩ := h.perform action
    obtain ⟨hstanding, hcursor, hstuck⟩ := ih hperform
    have hfirst := hpasses.cursor
    rw [strandedBy_cons, run_cons]
    refine ⟨hstanding, Nat.le_trans hfirst hcursor, ?_⟩
    rw [hstuck, hpasses.stuck, ← or_assoc]
    refine or_congr_left ?_
    -- The cursor is where it was at first just when neither part of the run has moved it.
    have hsame : ((env.perform action).2.order.cursor = env.order.cursor ∧
        ((env.perform action).2.run actions).2.order.cursor =
          (env.perform action).2.order.cursor) ↔
        ((env.perform action).2.run actions).2.order.cursor = env.order.cursor := by omega
    rw [and_assoc, hsame, or_and_right]

/-- The report of a fixpoint at which nothing is in transit blames a failed retrieval. -/
theorem Standing.lost (h : env.Standing) (hnone : Moment.transit ⟨env, [], .empty⟩ = [])
    (hfix : env.AtFixpoint) : ∀ id ∈ env.order.pending.head?, env.store.Lost id := by
  intro id hid
  have hmem : id ∈ env.order.order := List.mem_of_mem_drop (List.mem_of_mem_head? hid)
  obtain ⟨record, hr⟩ := Option.ne_none_iff_exists'.1 (h.inLine.known id hmem)
  rcases env.atFixpoint_iff.1 hfix id hid record hr with hrequested | ⟨failure, hs⟩
  · have htransit := h.accounted.requested id ⟨record, hr, hrequested⟩
    rw [hnone] at htransit
    cases htransit
  · exact ⟨record, failure, hr, hs⟩

/-- A browser's loader may be given any actions, and is settled after them.  Settling answers with a
report, and ends at a fixpoint just when no module was counted as loaded, and no given code failed, at
the place where the cursor still stands; otherwise the report blames a settled module, which one more
flush would pass.  At a fixpoint, once the document is ready, the report blames no module but one
whose retrieval failed, and every retrieved module that waits has such a module before it. -/
theorem settle_atFixpoint_iff (config : Configuration) (hhost : config.host = .browser)
    (transport : Transport) {engine : Script.Engine} (made : Environment)
    (hmake : make config transport engine = .ok made)
    (specs : List ModuleSpec) (actions : List Action) :
    let env := made.withSpecs specs
    let (answers, after) := env.run (actions ++ [.settle])
    ∃ report, answers.getLast? = some (.ok (some report)) ∧
      (after.AtFixpoint ↔ ¬ env.StrandedBy (actions ++ [.settle])) ∧
      (¬ after.AtFixpoint → ∃ id, report.blockedOn = some id ∧ after.store.Settled id ∧
        after.order.cursor < after.flush.2.order.cursor) ∧
      (after.AtFixpoint → after.documentWrite = false →
        (∀ id, report.blockedOn = some id → after.store.Lost id) ∧
        ∀ passed id waiting record code, after.order.pending = passed ++ id :: waiting →
          after.store.Ready id record code → ∃ other ∈ passed, after.store.Lost other) := by
  intro env
  obtain ⟨hmade, hconfig, -⟩ := fresh_of_make hmake
  have hfresh : env.Fresh := hmade.withSpecs specs
  have hnotStuck : ¬ env.Stuck := by
    rintro ⟨id, hid, -⟩
    rw [hfresh.order] at hid
    cases hid
  have henvhost : env.host = .browser := by
    rw [← hhost, ← hconfig]
    rfl
  have hstanding := hfresh.standing henvhost
  obtain ⟨hbefore, -, -⟩ := hstanding.run actions
  obtain ⟨env', hsettle, hsteps, harrived, houtstanding⟩ :=
    settle_cases hbefore.goesOn hbefore.flight hbefore.concurrency
  have hend : env'.Standing := (hbefore.steps (hsteps .empty)).1
  obtain ⟨hafter, -, hstuck⟩ := hstanding.run (actions ++ [.settle])
  obtain ⟨journal, hresult⟩ := run_settle env actions hsettle
  rw [hresult] at hafter hstuck ⊢
  simp only at hafter hstuck ⊢
  refine ⟨env'.reportNow, by simp, ?_, ?_, ?_⟩
  · rw [hafter.inLine.atFixpoint_iff, hstuck]
    simp [hnotStuck]
  · intro hnot
    rw [hafter.inLine.atFixpoint_iff, not_not] at hnot
    have hmoves := hnot.cursor_flush
    obtain ⟨id, hid, hs⟩ := hnot
    exact ⟨id, hid, hs, hmoves⟩
  · intro hfix hready
    have hnone : Moment.transit ⟨{ env' with journal, progress := ⟨[], []⟩ }, [], .empty⟩ = [] := by
      simp [Moment.transit, hend.flight.held hready, harrived, houtstanding]
    have hlost := hafter.lost hnone hfix
    refine ⟨hlost, ?_⟩
    intro passed id waiting record code hpending hr
    cases passed with
    | nil =>
      rw [List.nil_append] at hpending
      have hblocks := (atFixpoint_iff _).1 hfix id (by rw [hpending]; rfl)
      exact absurd hblocks hr.not_blocks
    | cons first passed =>
      exact ⟨first, List.mem_cons_self, hlost first (by rw [hpending]; rfl)⟩

/-- Of two modules the first is offline, and is counted as loaded; the second is left waiting. -/
theorem settle_atFixpoint_countedLoaded :
    let config := { Configuration.default with host := .browser, forceAsync := true, aliases := [] }
    let bundle := Bundle.empty.add [("c.js", "")] [] [("b.js", .network "offline")]
    let specs := [ModuleSpec.mk "b" "b.js" false, ⟨"c", "c.js", false⟩]
    let actions := [Action.load .insideEventLoop ["b", "c"], .setLoaded "b"]
    ∃ made, make config (.serial (.bundle bundle)) = .ok made ∧
      let (answers, after) := (made.withSpecs specs).run (actions ++ [.settle])
      ∃ report, answers.getLast? = some (.ok (some report)) ∧ report.blockedOn = some "b" ∧
        ¬ after.AtFixpoint ∧ after.store.Settled "b" ∧ ∃ record, after.store.Ready "c" record "" := by
  intro config bundle specs actions
  obtain ⟨made, hmade, hidle, harrived, hfirst, horder, hready⟩ : ∃ made,
      make config (.serial (.bundle bundle)) = .ok made ∧
      ((made.withSpecs specs).run actions).2.inFlight = 0 ∧
      ((made.withSpecs specs).run actions).2.schedule.arrived.length = 0 ∧
      ((made.withSpecs specs).run [.load .insideEventLoop ["b", "c"]]).2.order = ⟨["b", "c"], 0⟩ ∧
      ((made.withSpecs specs).run actions).2.order = ⟨["b", "c"], 0⟩ ∧
      ((made.withSpecs specs).run actions).2.store.get? "c" =
        some ⟨"c", "c.js", false, .retrieved ""⟩ :=
    ⟨_, rfl, by decide +kernel +revert⟩
  have hsettle := settle_of_idle hidle (List.eq_nil_of_length_eq_zero harrived)
  obtain ⟨journal, hresult⟩ := run_settle (made.withSpecs specs) actions
    (by simp only [perform, hsettle]; rfl)
  have hstranded : (made.withSpecs specs).StrandedBy (actions ++ [.settle]) := by
    refine ⟨[.load .insideEventLoop ["b", "c"]], .setLoaded "b", [.settle], rfl, ?_, ?_⟩
    · rw [Strands, hfirst]
      rfl
    · rw [hresult, hfirst]
      exact congrArg LoadOrder.cursor horder
  have hends := settle_atFixpoint_iff config rfl (.serial (.bundle bundle)) made hmade specs actions
  simp only [hresult] at hends
  obtain ⟨report, hlast, hfix, hstuck, -⟩ := hends
  have hnot := mt hfix.1 (not_not.2 hstranded)
  obtain ⟨id, hblocked, hsettled, -⟩ := hstuck hnot
  have hreport : report.blockedOn = some "b" := by
    rw [List.getLast?_concat] at hlast
    cases hlast
    rw [reportNow, horder]
    rfl
  rw [hreport] at hblocked
  cases hblocked
  refine ⟨made, hmade, ?_⟩
  rw [hresult]
  exact ⟨report, hlast, hreport, hnot, hsettled, _, hready, rfl⟩

end Environment

end ModuleLoader
