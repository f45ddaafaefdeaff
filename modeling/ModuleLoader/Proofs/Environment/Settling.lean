import ModuleLoader.Proofs.Environment.Starts
import ModuleLoader.Proofs.Retrieval.Moves

/-!
# Settling comes to an end

Settling lets retrievals move on and takes account of what arrives, one arrival at a time and in
order, until nothing is under way or an arrival ends it with an error.  Then it has used up that
arrival and left all later ones to be taken account of when settling is tried again.  Main statement:
`run_settles`, over the whole life of an environment no more retrievals have permits than it allows,
and settling as often as it fails brings each retrieval to its one permit, its one delivery and its
one account.
-/

set_option autoImplicit false

namespace ModuleLoader

namespace Environment

/-! ## Courses -/

/-- One thing that happens while settling goes on. -/
inductive Stride : Environment → Occurrence → Environment → Prop where
  | move {env : Environment} {medium : Medium} {event : Occurrence} {next : Schedule × Medium}
      (concurrent : env.transport = .concurrent medium)
      (moves : Schedule.Move (env.schedule, medium) event next) :
      Stride env event { env with schedule := next.1, transport := .concurrent next.2 }
  | take {env next : Environment} {arrival : Arrival} {rest : List Arrival}
      (arrived : env.schedule.arrived = arrival :: rest)
      (completed : env.receive arrival rest = (.ok (), next)) : Stride env (.taken arrival) next

/-- Any number of them. -/
abbrev Course : Environment → List Occurrence → Environment → Prop := Trace Stride

/-- A course, and at its end either success or an arrival that failed when account was taken of it. -/
inductive Pursues (env : Environment) : Except LoaderError Unit × Environment → Prop where
  | through {events : List Occurrence} {last : Environment} (course : Course env events last) :
      Pursues env (.ok (), last)
  | upTo {events : List Occurrence} {mid last : Environment} {arrival : Arrival} {rest : List Arrival}
      {e : LoaderError} (course : Course env events mid)
      (arrived : mid.schedule.arrived = arrival :: rest)
      (failed : mid.receive arrival rest = (.error e, last)) : Pursues env (.error e, last)

/-- What settling may come to: nothing is left under way, and the report is handed out, or an arrival
was used up that failed. -/
inductive Settled (env : Environment) : Except LoaderError LoadReport × Environment → Prop where
  | all {events : List Occurrence} {last : Environment} (course : Course env events last)
      (inFlight : last.inFlight = 0) (arrived : last.schedule.arrived = [])
      (outstanding : last.schedule.outstanding = []) :
      Settled env (.ok last.reportNow, last.report.2)
  | upTo {events : List Occurrence} {mid last : Environment} {arrival : Arrival} {rest : List Arrival}
      {e : LoaderError} (course : Course env events mid)
      (arrived : mid.schedule.arrived = arrival :: rest)
      (failed : mid.receive arrival rest = (.error e, last)) : Settled env (.error e, last)

variable {env env' mid : Environment} {events more : List Occurrence}

/-- Everything that happens while settling goes on leaves less work. -/
theorem Stride.work_lt {event : Occurrence} (h : Stride env event env') :
    env'.schedule.work < env.schedule.work := by
  cases h with
  | move concurrent moves => exact moves.work_lt
  | take arrived completed =>
    have hlt := env.work_receive_lt arrived
    rw [completed] at hlt
    exact hlt

/-- However retrievals take their turns, a course comes to an end. -/
theorem Course.length_add_work_le (h : Course env events env') :
    events.length + env'.schedule.work ≤ env.schedule.work := by
  induction h with
  | nil => simp
  | cons first _ ih =>
    have hlt := first.work_lt
    rw [List.length_cons]
    omega

/-- Nothing starts while settling goes on. -/
theorem Course.spawns_eq_nil (h : Course env events env') : events.flatMap Occurrence.spawns = [] := by
  induction h with
  | nil => rfl
  | cons first _ ih =>
    rw [List.flatMap_cons, ih, List.append_nil]
    cases first with
    | move concurrent moves => cases moves <;> rfl
    | take => rfl

/-- Moves of the schedule are a course of the environment. -/
theorem course_of_moves {a b : Schedule × Medium} (h : Schedule.Moves a events b) :
    ∀ {env : Environment}, env.schedule = a.1 → env.transport = .concurrent a.2 →
      Course env events { env with schedule := b.1, transport := .concurrent b.2 } := by
  induction h with
  | nil a =>
    rintro ⟨⟩ rfl rfl
    exact .nil _
  | @cons a b c event events first rest ih =>
    rintro env hs ht
    have hmove : Schedule.Move (env.schedule, a.2) event b := by
      rw [hs]
      exact first
    exact .cons (.move ht hmove) (ih rfl rfl)

/-- Moving retrievals on is a course. -/
theorem exists_course_stir {move : Schedule → Medium → Schedule × Medium}
    (hmove : ∀ s m, ∃ events, Schedule.Moves (s, m) events (move s m)) (env : Environment) :
    ∃ events, Course env events (env.stir move) := by
  rcases env.stir_cases move with ⟨medium, ht⟩ | hnone
  · obtain ⟨events, hmoves⟩ := hmove env.schedule medium
    rw [stir_of_concurrent ht]
    exact ⟨events, course_of_moves hmoves rfl ht⟩
  · rw [hnone]
    exact ⟨[], .nil _⟩

/-- Waiting is a course. -/
theorem exists_course_await (env : Environment) : ∃ events, Course env events env.await := by
  rw [await_eq_stir]
  exact exists_course_stir Schedule.exists_moves_await env

/-! ## Settling is a course -/

/-- What is pursued may come after a course. -/
theorem Pursues.after {outcome : Except LoaderError Unit × Environment}
    (h : Pursues mid outcome) (hcourse : Course env events mid) : Pursues env outcome := by
  cases h with
  | through course => exact .through (hcourse.append course)
  | upTo course arrived failed => exact .upTo (hcourse.append course) arrived failed

/-- Taking arrivals is a course, and ends in success or at an arrival that failed. -/
theorem receiveAll_pursues {arrivals : List Arrival} (h : env.schedule.arrived = arrivals) :
    Pursues env (env.receiveAll arrivals) := by
  induction arrivals generalizing env with
  | nil => exact .through (.nil env)
  | cons arrival rest ih =>
    rw [receiveAll]
    rcases hr : env.receive arrival rest with ⟨e | u, next⟩
    · exact .upTo (.nil env) h hr
    · have hnext : next.schedule.arrived = rest := by
        have hsnd : (env.receive arrival rest).2 = next := congrArg Prod.snd hr
        rw [← hsnd, receive, schedule_complete]
      exact (ih hnext).after (.single (.take h hr))

/-- Waiting for all retrievals is a course, and ends in success or at an arrival that failed. -/
theorem settleAll_pursues (env : Environment) : Pursues env env.settleAll := by
  fun_induction settleAll env with
  | case1 env h => exact .through (.nil env)
  | case2 env h harr =>
    obtain ⟨events, hcourse⟩ := env.exists_course_await
    exact .through hcourse
  | case3 env h arrival rest harr e env' hr =>
    obtain ⟨events, hcourse⟩ := env.exists_course_await
    exact .upTo hcourse harr hr
  | case4 env h arrival rest harr env' hr ih =>
    obtain ⟨events, hcourse⟩ := env.exists_course_await
    exact ih.after (hcourse.append (.single (.take harr hr)))

/-- Settling is a course, and ends in success or at an arrival that failed. -/
theorem settling_pursues (env : Environment) : Pursues env env.settling := by
  have hdrain : Pursues env env.drain := receiveAll_pursues rfl
  unfold settling andThen
  rcases hd : env.drain with ⟨e | u, mid⟩
  · rw [hd] at hdrain
    exact hdrain
  · rw [hd] at hdrain
    cases hdrain with
    | through course => exact (settleAll_pursues mid).after course

/-- Settling comes to what `Settled` says. -/
theorem Upright.settled (h : env.Upright) : Settled env env.settle := by
  have hpursues := env.settling_pursues
  rcases hs : env.settling with ⟨e | u, last⟩
  · rw [hs] at hpursues
    rw [settle_of_error hs]
    cases hpursues with
    | upTo course arrived failed => exact .upTo course arrived failed
  · rw [hs] at hpursues
    rw [settle_of_ok hs]
    obtain ⟨harrived, houtstanding⟩ := settling_ends h.flight h.concurrency hs
    obtain ⟨asked, -, hsteps⟩ := (settling_leads .insideEventLoop env).steps
    rw [hs] at hsteps
    have hflight : last.Flight := (hsteps .empty).flight h.flight
    have hnone : last.inFlight = 0 := by
      rw [hflight.inFlight, harrived, houtstanding]
      rfl
    cases hpursues with
    | through course => exact .all course hnone harrived houtstanding

/-! ## Passages -/

/-- What may happen between two events of retrievals: a step that moves none of them, a module that
is settled by force, code that is given, an exchange of what code is retrieved from, locations that
are given, and output that is taken. -/
inductive Aside : Environment → Environment → Prop where
  | step {m m' : Moment} (step : Moment.Step m m')
      (schedule : m'.env.schedule = m.env.schedule) (inFlight : m'.env.inFlight = m.env.inFlight) :
      Aside m.env m'.env
  | setLoaded (env : Environment) (id : String) : Aside env (env.setLoaded id)
  | evalLoad (env : Environment) (path : String) (hasSourceMap : Bool) (code : String) :
      Aside env (env.evalLoad path hasSourceMap code).2
  | supply (env : Environment) (content : Medium) : Aside env (env.supply content)
  | withSpecs (env : Environment) (specs : List ModuleSpec) : Aside env (env.withSpecs specs)
  | takeOutput (env : Environment) : Aside env env.takeOutput.2

/-- Part of the life of an environment: the events of its retrievals, and between them what is done
that concerns none of them. -/
inductive Passage : Environment → List Occurrence → Environment → Prop where
  | nil (env : Environment) : Passage env [] env
  | stride {env mid env' : Environment} {event : Occurrence} {events : List Occurrence}
      (first : Stride env event mid) (rest : Passage mid events env') :
      Passage env (event :: events) env'
  | fail {env mid env' : Environment} {arrival : Arrival} {arrivals : List Arrival}
      {events : List Occurrence} {e : LoaderError}
      (arrived : env.schedule.arrived = arrival :: arrivals)
      (failed : env.receive arrival arrivals = (.error e, mid)) (rest : Passage mid events env') :
      Passage env (.taken arrival :: events) env'
  | spawn {env env' : Environment} {medium : Medium} {r : Retrieval} {events : List Occurrence}
      (concurrent : env.transport = .concurrent medium)
      (rest : Passage { env with
        inFlight := env.inFlight + 1
        schedule := env.schedule.spawn r } events env') :
      Passage env (.spawned r :: events) env'
  | aside {env mid env' : Environment} {events : List Occurrence} (between : Aside env mid)
      (rest : Passage mid events env') : Passage env events env'

/-- What has come of the retrievals of an environment that was idle at first. -/
structure Accounts (most : Nat) (events : List Occurrence) (env : Environment) : Prop where
  bounded : env.schedule.holding.length ≤ most
  /-- Every retrieval that was started has got one permit, or is seeking it. -/
  granted : (events.flatMap Occurrence.grants ++ env.schedule.seeking).Perm
    (events.flatMap Occurrence.spawns)
  /-- Every retrieval that has got a permit has given it back with one delivery, or has it. -/
  sent : (events.flatMap Occurrence.senders ++ env.schedule.holding).Perm
    (events.flatMap Occurrence.grants)
  /-- Account was taken of the deliveries once each and in order, as far as it was taken. -/
  taken : events.flatMap Occurrence.takings ++ env.schedule.arrived =
    events.flatMap Occurrence.deliveries
  inFlight : env.inFlight + (events.flatMap Occurrence.takings).length =
    (events.flatMap Occurrence.spawns).length

/-- What happens while settling goes on is part of the life of the environment. -/
theorem Course.passage (h : Course env events env') : Passage env events env' := by
  induction h with
  | nil env => exact .nil env
  | cons first _ ih => exact .stride first ih

/-- Two parts of a life, one after the other, are one. -/
theorem Passage.append (h : Passage env events mid) (h' : Passage mid more env') :
    Passage env (events ++ more) env' := by
  induction h with
  | nil => exact h'
  | stride first _ ih => exact .stride first (ih h')
  | fail arrived failed _ ih => exact .fail arrived failed (ih h')
  | spawn concurrent _ ih => exact .spawn concurrent (ih h')
  | aside between _ ih => exact .aside between (ih h')

/-- A passage in which nothing happens to any retrieval. -/
theorem Aside.passage (h : Aside env env') : Passage env [] env' := .aside h (.nil env')

/-- A flush leaves the number of retrievals in flight alone. -/
theorem inFlight_flush (env : Environment) : env.flush.2.inFlight = env.inFlight := by
  obtain ⟨journal, progress, h⟩ := env.flush_frame
  rw [h]

/-- Completing a retrieval leaves the number of those in flight to its caller. -/
theorem inFlight_complete (env : Environment) (id : String)
    (result : Except RetrievalFailure String) :
    (env.complete id result).2.inFlight = env.inFlight := by
  obtain ⟨store, order, layer, journal, progress, h⟩ := env.complete_frame id result
  rw [h]

/-- Giving code moves no retrieval. -/
theorem unmoved_evalLoad (env : Environment) (path : String) (hasSourceMap : Bool) (code : String) :
    (env.evalLoad path hasSourceMap code).2.schedule = env.schedule ∧
      (env.evalLoad path hasSourceMap code).2.inFlight = env.inFlight := by
  cases ha : env.acceptsCode with
  | false => simp [evalLoad, ha]
  | true =>
    obtain ⟨layer, journal, progress, heval | heval⟩ := evalLoad_settles ha path hasSourceMap code
    · rw [heval]
      exact ⟨schedule_flush _, inFlight_flush _⟩
    · rw [heval]
      exact ⟨rfl, rfl⟩

/-- What happens beside the retrievals leaves them alone. -/
theorem Aside.unmoved (h : Aside env env') :
    env'.schedule = env.schedule ∧ env'.inFlight = env.inFlight := by
  cases h with
  | step _ schedule inFlight => exact ⟨schedule, inFlight⟩
  | setLoaded | withSpecs | takeOutput => exact ⟨rfl, rfl⟩
  | evalLoad _ path hasSourceMap code => exact env.unmoved_evalLoad path hasSourceMap code
  | supply _ content =>
    obtain ⟨transport, hs, -⟩ := env.supply_frame content
    rw [hs]
    exact ⟨rfl, rfl⟩

/-- What a passage keeps: the permits are accounted for, and what was not taken is in flight. -/
structure Tallied (most : Nat) (env : Environment) : Prop where
  permits : env.schedule.Sound most
  inFlight : env.inFlight = env.schedule.arrived.length + env.schedule.outstanding.length

/-- One event of a passage: the permits stay accounted for, and the books are kept. -/
structure Keeps (most : Nat) (env : Environment) (events : List Occurrence) (env' : Environment) :
    Prop where
  permits : env'.schedule.Sound most
  balance : Schedule.Balance env.schedule events env'.schedule
  inFlight : env'.inFlight + (events.flatMap Occurrence.takings).length =
    env.inFlight + (events.flatMap Occurrence.spawns).length

variable {most : Nat}

/-- The books are kept over two stretches. -/
theorem Keeps.trans (h : Keeps most env events mid) (h' : Keeps most mid more env') :
    Keeps most env (events ++ more) env' where
  permits := h'.permits
  balance := h.balance.trans h'.balance
  inFlight := by
    have hfirst := h.inFlight
    have hrest := h'.inFlight
    rw [List.flatMap_append, List.flatMap_append, List.length_append, List.length_append]
    omega

/-- What is in flight can be told from the books. -/
theorem Tallied.keeps (h : env.Tallied most) (hk : Keeps most env events env') :
    env'.Tallied most := by
  refine ⟨hk.permits, ?_⟩
  have hgranted := hk.balance.granted.length_eq
  have hsent := hk.balance.sent.length_eq
  have harrived := congrArg List.length hk.balance.arrived
  have hdeliveries : (events.flatMap Occurrence.deliveries).length =
      (events.flatMap Occurrence.senders).length := by
    rw [List.length_flatMap, List.length_flatMap]
    congr 1
    exact List.map_congr_left fun event _ => by cases event <;> rfl
  have hbefore := env.schedule.outstanding_perm.length_eq
  have hafter := env'.schedule.outstanding_perm.length_eq
  have hcount := h.inFlight
  have hend := hk.inFlight
  simp only [List.length_append] at hgranted hsent harrived hbefore hafter
  omega

/-- An arrival that is taken is in flight no more. -/
theorem Tallied.take (h : env.Tallied most) {arrival : Arrival} {rest : List Arrival}
    (harrived : env.schedule.arrived = arrival :: rest) :
    Keeps most env [.taken arrival] (env.receive arrival rest).2 := by
  have hcount := h.inFlight
  rw [harrived, List.length_cons] at hcount
  refine ⟨?_, ?_, ?_⟩
  · rw [receive, schedule_complete]
    exact ⟨h.permits.permits_add_held, h.permits.saturated⟩
  · rw [receive, schedule_complete]
    exact .take harrived
  · rw [inFlight_receive]
    simp only [Occurrence.takings, Occurrence.spawns, List.flatMap_cons, List.flatMap_nil,
      List.append_nil, List.length_singleton, List.length_nil]
    omega

/-- The books are kept over every passage. -/
theorem Tallied.passage (h : env.Tallied most) (hp : Passage env events env') :
    Keeps most env events env' := by
  induction hp with
  | nil env => exact ⟨h.permits, .refl _, rfl⟩
  | @stride env mid env' event events first rest ih =>
    have hfirst : Keeps most env [event] mid := by
      cases first with
      | move concurrent moves =>
        refine ⟨moves.sound h.permits, moves.balance, ?_⟩
        cases moves <;> rfl
      | take arrived completed =>
        have htake := h.take arrived
        rw [completed] at htake
        exact htake
    exact hfirst.trans (ih (h.keeps hfirst))
  | @fail env mid env' arrival arrivals events e arrived failed rest ih =>
    have hfirst := h.take arrived
    rw [failed] at hfirst
    exact hfirst.trans (ih (h.keeps hfirst))
  | @spawn env env' medium r events concurrent rest ih =>
    have hfirst : Keeps most env [.spawned r] { env with
        inFlight := env.inFlight + 1
        schedule := env.schedule.spawn r } := ⟨h.permits.spawn r, .spawn _ r, rfl⟩
    exact hfirst.trans (ih (h.keeps hfirst))
  | @aside env mid env' events between rest ih =>
    obtain ⟨schedule, inFlight⟩ := between.unmoved
    have hmid : mid.Tallied most := by
      refine ⟨?_, ?_⟩
      · rw [schedule]
        exact h.permits
      · rw [schedule, inFlight]
        exact h.inFlight
    have hrest := ih hmid
    refine ⟨hrest.permits, ?_, ?_⟩
    · rw [← schedule]
      exact hrest.balance
    · rw [← inFlight]
      exact hrest.inFlight

/-- Where the retrievals under way are counted the books can be opened. -/
theorem Flight.tallied (h : env.Flight) : env.Tallied env.config.maxConcurrency :=
  ⟨h.permits, h.inFlight⟩

/-- From a new environment on, `Accounts` tells what has come of its retrievals. -/
theorem Fresh.accounts (h : env.Fresh) (hp : Passage env events env') :
    Accounts env.config.maxConcurrency events env' := by
  have hk := h.flight.tallied.passage hp
  have hgranted := hk.balance.granted
  have hsent := hk.balance.sent
  have harrived := hk.balance.arrived
  have hcount := hk.inFlight
  have hseeking : env.schedule.seeking = [] := by
    rw [h.schedule]
    rfl
  have hholding : env.schedule.holding = [] := by
    rw [h.schedule]
    rfl
  have hnone : env.schedule.arrived = [] := by
    rw [h.schedule]
    rfl
  rw [hseeking, List.append_nil] at hgranted
  rw [hholding, List.append_nil] at hsent
  rw [hnone, List.nil_append] at harrived
  rw [h.inFlight, Nat.zero_add] at hcount
  exact ⟨hk.permits.length_holding_le, hgranted, hsent, harrived, hcount⟩

/-! ## Runs are passages -/

/-- A recorded operation is a passage, which spawns just what is started, where retrievals run beside
the caller. -/
structure Spawns {α : Type} (env : Environment) (r : Noted α) : Prop where
  concurrent : r.outcome.2.transport.isConcurrent = env.transport.isConcurrent
  passage : ∃ events, Passage env events r.outcome.2 ∧ (env.transport.isConcurrent = true →
    events.flatMap Occurrence.spawns = r.starts.map Start.retrieval)

/-- Something that happens beside the retrievals spawns nothing. -/
theorem Spawns.silent {α : Type} {outcome : Except LoaderError α × Environment}
    (h : Aside env outcome.2)
    (hc : outcome.2.transport.isConcurrent = env.transport.isConcurrent) :
    Spawns env (.silent outcome) := ⟨hc, [], h.passage, fun _ => rfl⟩

/-- An operation that changes nothing spawns nothing. -/
theorem Spawns.nothing (env : Environment) (answer : Except LoaderError Unit) :
    Spawns env (.silent (answer, env)) := ⟨rfl, [], .nil env, fun _ => rfl⟩

/-- A course in which nothing is noted spawns nothing. -/
theorem Spawns.ofCourse {α : Type} {outcome : Except LoaderError α × Environment}
    (h : ∃ events, Course env events outcome.2)
    (hc : outcome.2.transport.isConcurrent = env.transport.isConcurrent) :
    Spawns env (.silent outcome) := by
  obtain ⟨events, hcourse⟩ := h
  exact ⟨hc, events, hcourse.passage, fun _ => hcourse.spawns_eq_nil⟩

/-- What two operations spawn, one after the other, is what both together start. -/
theorem Spawns.trans {notes : List Note} {r : Noted Unit}
    (h : Spawns env (⟨(.ok (), mid), notes⟩ : Noted Unit)) (hnext : Spawns mid r) :
    Spawns env (⟨r.outcome, notes ++ r.notes⟩ : Noted Unit) := by
  obtain ⟨hkind, events, hpassage, hspawns⟩ := h
  obtain ⟨hkind', later, hpassage', hspawns'⟩ := hnext
  refine ⟨hkind'.trans hkind, events ++ later, hpassage.append hpassage', fun hc => ?_⟩
  rw [Noted.starts_append, List.flatMap_append, List.map_append, hspawns hc,
    hspawns' (Eq.trans hkind hc)]
  rfl

/-- Moving retrievals on does not change whether they run beside the caller. -/
theorem isConcurrent_stir (env : Environment) (move : Schedule → Medium → Schedule × Medium) :
    (env.stir move).transport.isConcurrent = env.transport.isConcurrent := by
  rcases env.stir_cases move with ⟨medium, ht⟩ | hnone
  · rw [stir_of_concurrent ht, ht]
    rfl
  · rw [hnone]

/-- A retrieval that is started is spawned, or looked up at once. -/
theorem start_spawns (env : Environment) (caller : Caller) (spec : ModuleSpec) :
    Spawns env (env.recordStart caller spec) := by
  cases hc : env.canStart caller with
  | false =>
    rw [recordStart, if_neg (by simp [hc])]
    exact .nothing env _
  | true =>
    have hkind := (env.guarded_start spec).concurrent
    rw [← recordStart_outcome hc] at hkind
    refine ⟨hkind, ?_⟩
    rw [recordStart_outcome hc]
    cases ht : env.transport with
    | concurrent medium =>
      refine ⟨[.spawned ⟨spec.id, spec.location⟩], ?_, fun _ => ?_⟩
      · have hspawned : (env.start spec).2 = { env with
            inFlight := env.inFlight + 1
            schedule := env.schedule.spawn ⟨spec.id, spec.location⟩ } := by
          simp only [start, ht]
        rw [hspawned]
        exact .spawn ht (.nil _)
      · rw [recordStart, if_pos hc, ht]
        rfl
    | serial medium =>
      have hfetch := Aside.step (.fetch env [] .empty spec medium ht)
        (schedule_complete _ _ _) (inFlight_complete _ _ _)
      refine ⟨[], ?_, fun h => absurd h Bool.false_ne_true⟩
      simp only [start, ht]
      exact hfetch.passage
    | none =>
      refine ⟨[], ?_, fun h => absurd h Bool.false_ne_true⟩
      simp only [start, ht]
      exact .nil env

/-- Of all parts of operations only the starts spawn anything. -/
theorem assembles_spawns : Assembles fun env r => Spawns env r where
  nothing env := .nothing env _
  refused env _ _ := .nothing env _
  announce env level text := .silent (.step (.announce env [] .empty level text) rfl rfl) rfl
  register env path new := .silent (.step (.register env [] .empty path new) rfl rfl) rfl
  hold env spec held := .silent (.step (.hold env [] .empty spec held) rfl rfl) rfl
  setLoaded env id := .silent (.setLoaded env id) rfl
  start := start_spawns
  receive {env arrival rest} arrived := by
    have hkind : (env.receive arrival rest).2.transport.isConcurrent =
        env.transport.isConcurrent := by rw [Environment.receive, transport_complete]
    have hstarts : (env.recordReceive arrival rest).starts = [] :=
      recordComplete_starts _ arrival.id arrival.result
    rw [← recordReceive_outcome] at hkind
    refine ⟨hkind, [.taken arrival], ?_, fun _ => by rw [hstarts]; rfl⟩
    rw [recordReceive_outcome]
    rcases hr : env.receive arrival rest with ⟨e | u, next⟩
    · exact .fail arrived hr (.nil _)
    · exact .stride (.take arrived hr) (.nil _)
  await env := by
    refine .ofCourse env.exists_course_await ?_
    rw [await_eq_stir]
    exact env.isConcurrent_stir _
  trans := .trans

/-- Letting go what is held back spawns nothing by itself. -/
theorem released_spawns (env : Environment) :
    Spawns env (.silent (.ok (), env.released) : Noted Unit) :=
  .silent (.step (.release env [] .empty) rfl rfl) rfl

/-- Handing out a report concerns no retrieval. -/
theorem aside_report (env : Environment) : Aside env env.report.2 := by
  obtain ⟨journal, hreport⟩ := env.report_frame
  have hframe : env.report.2 = { env with journal, progress := ⟨[], []⟩ } := by rw [hreport]
  exact .step (.report env [] .empty) (by rw [hframe]) (by rw [hframe])

/-- Handing out a report spawns nothing. -/
theorem Spawns.reporting {r : Noted Unit} (h : Spawns env r) : Spawns env r.reporting := by
  obtain ⟨⟨e | u, last⟩, notes⟩ := r
  · exact ⟨h.concurrent, h.passage⟩
  · obtain ⟨hkind, events, hpassage, hspawns⟩ := h
    obtain ⟨journal, hreport⟩ := last.report_frame
    refine ⟨?_, events ++ [], hpassage.append last.aside_report.passage, fun hc => ?_⟩
    · have hsame : last.report.2.transport = last.transport := by rw [hreport]
      exact (congrArg Transport.isConcurrent hsame).trans hkind
    · rw [List.append_nil]
      exact hspawns hc

/-- A latency that ends while nobody waits is an event, where retrievals run beside the caller. -/
theorem Flight.rouse_spawns (h : env.Flight) (n : Nat) :
    Spawns env (.silent (.ok (), { env with schedule := env.schedule.rouse n }) : Noted Unit) := by
  by_cases hc : ∃ medium, env.transport = .concurrent medium
  · obtain ⟨medium, ht⟩ := hc
    obtain ⟨events, hmoves⟩ := env.schedule.exists_moves_rouse medium n
    have hcourse := course_of_moves hmoves rfl ht
    rw [← ht] at hcourse
    exact .ofCourse ⟨events, hcourse⟩ rfl
  · -- Where retrievals do not run beside the caller, none of them is asleep.
    have hnone := h.alone fun medium ht => hc ⟨medium, ht⟩
    have hcount := h.inFlight
    have hsleeping : env.schedule.sleeping = [] := by
      apply List.eq_nil_of_length_eq_zero
      simp only [Schedule.outstanding, List.length_append, List.length_map] at hcount
      omega
    have hsame : env.schedule.rouse n = env.schedule := by
      simp only [Schedule.rouse, hsleeping, List.getElem?_nil]
    rw [hsame]
    exact .nothing env _

/-- Every action is a passage, which spawns just the retrievals that the action starts. -/
theorem Upright.spawns (h : env.Upright) (action : Action) : Spawns env (env.record action) := by
  have hunreported : ∀ {r : Noted Unit}, Spawns env r → Spawns env r.unreported :=
    fun hr => ⟨hr.concurrent, hr.passage⟩
  cases action with
  | load caller paths =>
    exact hunreported
      (assembles_spawns.loadWith released_spawns env caller paths env.config.forceAsync)
  | loadWith caller paths atOnce =>
    exact hunreported (assembles_spawns.loadWith released_spawns env caller paths atOnce)
  | documentReady caller =>
    exact hunreported (assembles_spawns.documentReady released_spawns env caller)
  | settle => exact (assembles_spawns.settling env).reporting
  | setLoaded id => exact .silent (.setLoaded env id) rfl
  | evalLoad path hasSourceMap code =>
    refine ⟨?_, [], (Aside.evalLoad env path hasSourceMap code).passage, fun _ => ?_⟩
    · show (env.evalLoad path hasSourceMap code).2.transport.isConcurrent = _
      obtain ⟨layer, journal, progress, heval | heval⟩ :=
        evalLoad_settles h.retrieving.acceptsCode path hasSourceMap code
      · rw [heval, transport_flush]
      · rw [heval]
    · rw [record_evalLoad_starts]
      rfl
  | turn n =>
    have hcourse := exists_course_stir (fun s m => s.exists_moves_turn m n) env
    have hkind := env.isConcurrent_stir fun schedule medium => schedule.turn medium n
    rw [← turn_eq_stir] at hcourse hkind
    exact .ofCourse hcourse hkind
  | rouse n => exact hunreported (h.flight.rouse_spawns n)
  | supply content =>
    refine .silent (.supply env content) ?_
    show (env.supply content).transport.isConcurrent = _
    unfold Environment.supply
    cases ht : env.transport <;> simp [ht, Transport.isConcurrent]

/-- A run is a passage; where retrievals run beside the caller it spawns just those that are noted as
started, in order. -/
theorem Upright.run_spawns (h : env.Upright) (actions : List Action) :
    ∃ events, Passage env events (env.run actions).2 ∧ (env.transport.isConcurrent = true →
      events.flatMap Occurrence.spawns = (env.started actions).map Start.retrieval) := by
  induction actions generalizing env with
  | nil => exact ⟨[], .nil env, fun _ => rfl⟩
  | cons action actions ih =>
    obtain ⟨hkind, events, hfirst, hspawns⟩ := h.spawns action
    rw [record_outcome] at hkind hfirst
    obtain ⟨more, hrest, hspawns'⟩ := ih (h.perform action)
    refine ⟨events ++ more, hfirst.append hrest, fun hc => ?_⟩
    rw [started_cons, List.flatMap_append, List.map_append, hspawns hc, hspawns' (hkind.trans hc)]

/-! ## Settling again -/

/-- Settling that fails uses up an arrival, so that it does not fail for ever. -/
theorem Upright.exists_settles (h : env.Upright) :
    ∃ (errors : List LoaderError) (report : LoadReport) (later : List Occurrence)
        (final : Environment),
      env.run (List.replicate errors.length .settle ++ [.settle]) =
        (errors.map .error ++ [.ok (some report)], final) ∧
      errors.length ≤ env.inFlight ∧ Passage env later final ∧
      later.flatMap Occurrence.spawns = [] ∧
      final.inFlight = 0 ∧ final.schedule.arrived = [] ∧ final.schedule.outstanding = [] := by
  induction hn : env.inFlight using Nat.strongRecOn generalizing env with
  | ind n ih =>
    have hsettled := h.settled
    rcases hs : env.settle with ⟨e | report, next⟩
    · rw [hs] at hsettled
      cases hsettled with
      | @upTo events mid next arrival rest e course arrived failed =>
        have hpassage : Passage env (events ++ [.taken arrival]) next :=
          course.passage.append (.fail arrived failed (.nil next))
        have hspawns : (events ++ [Occurrence.taken arrival]).flatMap Occurrence.spawns = [] := by
          rw [List.flatMap_append, course.spawns_eq_nil]
          rfl
        have hperform : env.perform .settle = (.error e, next) := by
          rw [Environment.perform, hs]
          rfl
        have hlt : next.inFlight < n := by
          have hcount := (h.flight.tallied.passage hpassage).inFlight
          rw [hspawns, hn, List.flatMap_append, List.length_append] at hcount
          simp only [Occurrence.takings, List.flatMap_cons, List.flatMap_nil, List.append_nil,
            List.length_singleton, List.length_nil] at hcount
          omega
        have hnext : next.Upright := by
          have hafter := h.perform .settle
          rw [hperform] at hafter
          exact hafter
        obtain ⟨errors, report, later, final, hrun, hlength, hlater, hnone, hends⟩ :=
          ih next.inFlight hlt hnext rfl
        refine ⟨e :: errors, report, (events ++ [.taken arrival]) ++ later, final, ?_, ?_,
          hpassage.append hlater, ?_, hends⟩
        · rw [List.length_cons, List.replicate_succ, List.cons_append, run_cons, hperform, hrun]
          rfl
        · rw [List.length_cons]
          omega
        · rw [List.flatMap_append, hspawns, hnone, List.append_nil]
    · rw [hs] at hsettled
      cases hsettled with
      | @all events last course inFlight arrived outstanding =>
        obtain ⟨journal, hreport⟩ := last.report_frame
        have hperform : env.perform .settle = (.ok (some last.reportNow), last.report.2) := by
          rw [Environment.perform, hs]
          rfl
        refine ⟨[], last.reportNow, events ++ [], last.report.2, ?_, Nat.zero_le _,
          course.passage.append last.aside_report.passage, ?_, ?_⟩
        · rw [List.length_nil, List.replicate_zero, List.nil_append, run_cons, hperform]
          rfl
        · rw [List.append_nil]
          exact course.spawns_eq_nil
        · rw [hreport]
          exact ⟨inFlight, arrived, outstanding⟩

/-- Only a host that retrieves modules does so beside the caller. -/
theorem behavior_of_concurrent {config : Configuration} {transport : Transport} {medium : Medium}
    (h : chooseTransport config.host transport = .ok (.concurrent medium)) :
    config.host.profile.behavior = .retrieve := by
  unfold chooseTransport at h
  cases hhost : config.host <;> rw [hhost] at h <;> first | rfl | cases h

/-- An environment whose retrievals run beside the caller, from its making on.  At every moment no
more of them have permits than it allows, whatever happens meanwhile.  Whatever was done to it,
settling comes to an end, with nothing left or at an arrival that failed; settling as often as it
fails leaves nothing; and by then every retrieval that was started has had just one permit and made
just one delivery, and account was taken of all deliveries, once each and in order. -/
theorem run_settles (config : Configuration) (transport : Transport)
    {engine : Script.Engine} (made : Environment)
    (hmake : make config transport engine = .ok made) (medium : Medium)
    (hconcurrent : made.transport = .concurrent medium) (specs : List ModuleSpec) :
    let start := made.withSpecs specs
    (∀ events env, Passage start events env → Accounts config.maxConcurrency events env) ∧
      ∀ actions, let after := (start.run actions).2
        (∀ events env, Course after events env →
          events.length + env.schedule.work ≤ after.schedule.work) ∧
        Settled after after.settle ∧
        ∃ events, Passage start events after ∧
          ∃ (errors : List LoaderError) (report : LoadReport) (later : List Occurrence)
              (final : Environment),
            after.run (List.replicate errors.length .settle ++ [.settle]) =
              (errors.map .error ++ [.ok (some report)], final) ∧
            errors.length ≤ after.inFlight ∧ Passage after later final ∧
            later.flatMap Occurrence.spawns = [] ∧
            final.inFlight = 0 ∧ final.schedule.arrived = [] ∧
            ((events ++ later).flatMap Occurrence.grants).Perm
              (events.flatMap Occurrence.spawns) ∧
            ((events ++ later).flatMap Occurrence.senders).Perm
              (events.flatMap Occurrence.spawns) ∧
            (events ++ later).flatMap Occurrence.takings =
              (events ++ later).flatMap Occurrence.deliveries := by
  intro start
  obtain ⟨hmade, hconfig, hchosen⟩ := fresh_of_make hmake
  have hstart : start.Fresh := hmade.withSpecs specs
  rw [hconcurrent] at hchosen
  have hbehavior : start.profile.behavior = .retrieve := by
    show made.config.host.profile.behavior = .retrieve
    rw [hconfig]
    exact behavior_of_concurrent hchosen
  have haccounts : ∀ events env, Passage start events env →
      Accounts config.maxConcurrency events env := by
    intro events env hpassage
    rw [← hconfig]
    exact hstart.accounts hpassage
  refine ⟨haccounts, fun actions => ?_⟩
  have hupright := hstart.upright hbehavior
  have hafter := hupright.run actions
  refine ⟨fun events env hcourse => hcourse.length_add_work_le, hafter.settled, ?_⟩
  obtain ⟨events, hevents, -⟩ := hupright.run_spawns actions
  obtain ⟨errors, report, later, final, hrun, hlength, hlater, hnone, hidle, harrived,
    houtstanding⟩ := hafter.exists_settles
  have hall := haccounts _ _ (hevents.append hlater)
  have hcount := final.schedule.outstanding_perm
  rw [houtstanding] at hcount
  obtain ⟨hholding, hseeking⟩ := List.append_eq_nil_iff.1 hcount.nil_eq.symm
  have hspawns : (events ++ later).flatMap Occurrence.spawns =
      events.flatMap Occurrence.spawns := by
    rw [List.flatMap_append, hnone, List.append_nil]
  have hgranted := hall.granted
  rw [hseeking, List.append_nil, hspawns] at hgranted
  have hsent := hall.sent
  rw [hholding, List.append_nil] at hsent
  have htaken := hall.taken
  rw [harrived, List.append_nil] at htaken
  exact ⟨events, hevents, errors, report, later, final, hrun, hlength, hlater, hnone, hidle,
    harrived, hgranted, hsent.trans hgranted, htaken⟩

/-- A worker may retrieve concurrently, here with one permit for two modules.  The first is not found,
which ends the first attempt; the second has not arrived yet, and is left for the next. -/
theorem run_settles_again :
    let config := { Configuration.default with host := .worker, aliases := [], maxConcurrency := 1 }
    let bundle := Bundle.empty.add [("b.js", "")] [("a.js", 7), ("b.js", 3)] []
    let specs := [ModuleSpec.mk "a" "a.js" false, ⟨"b", "b.js", false⟩]
    let actions := [Action.load .insideEventLoop ["a", "b"], .turn 0, .turn 0]
    ∃ made, make config (.concurrent (.bundle bundle)) = .ok made ∧
      made.transport = .concurrent (.bundle bundle) ∧
      let after := ((made.withSpecs specs).run actions).2
      after.inFlight = 2 ∧ after.schedule.holding = [⟨"a", "a.js"⟩] ∧
        after.schedule.seeking = [⟨"b", "b.js"⟩] ∧
        after.settle.1 = .error (.retrieval "a" "a.js" (.notFound "a.js")) ∧
        after.settle.2.inFlight = 1 ∧ Settled after after.settle ∧
        ∃ (errors : List LoaderError) (report : LoadReport) (final : Environment),
          after.run (List.replicate errors.length .settle ++ [.settle]) =
            (errors.map .error ++ [.ok (some report)], final) ∧
          errors.length ≤ 2 ∧ final.inFlight = 0 := by
  intro config bundle specs actions
  obtain ⟨made, hmake, htransport, hinFlight, hholding, hseeking, hfails, hleft⟩ : ∃ made,
      make config (.concurrent (.bundle bundle)) = .ok made ∧
      made.transport = .concurrent (.bundle bundle) ∧
      ((made.withSpecs specs).run actions).2.inFlight = 2 ∧
      ((made.withSpecs specs).run actions).2.schedule.holding = [⟨"a", "a.js"⟩] ∧
      ((made.withSpecs specs).run actions).2.schedule.seeking = [⟨"b", "b.js"⟩] ∧
      ((made.withSpecs specs).run actions).2.settle.1 =
        .error (.retrieval "a" "a.js" (.notFound "a.js")) ∧
      ((made.withSpecs specs).run actions).2.settle.2.inFlight = 1 :=
    ⟨_, rfl, rfl, by decide +kernel +revert⟩
  obtain ⟨-, hruns⟩ := run_settles config (.concurrent (.bundle bundle)) made hmake
    (.bundle bundle) htransport specs
  obtain ⟨-, hsettled, events, -, errors, report, later, final, hrun, hlength, -, -, hidle, -⟩ :=
    hruns actions
  rw [hinFlight] at hlength
  exact ⟨made, hmake, htransport, hinFlight, hholding, hseeking, hfails, hleft, hsettled, errors,
    report, final, hrun, hlength, hidle⟩

end Environment

end ModuleLoader
