import ModuleLoader.Proofs.Environment.Incidents

/-!
# Loading one module after the other

Where retrievals are waited for and loading stops at failures, a new loader that is given some paths
retrieves and evaluates one module after the other, up to the first that fails.  The modules after
that are not looked at: they get no record, no place in the order and no request.  Main statement:
`load_boots`.
-/

set_option autoImplicit false

namespace ModuleLoader

open ModuleLoader.Namespace (Layer WrapOptions)

/-! ## Modules in a row -/

/-- What retrieving and evaluating one module comes to, in a namespace. -/
def ModuleSpec.attempt (spec : ModuleSpec) (options : WrapOptions)
    (result : Except RetrievalFailure String) (layer : Layer) : Except FailureCause Unit × Layer :=
  match result with
  | .error failure => (.error (.retrieval failure), layer)
  | .ok code =>
    match layer.loadModule options ⟨spec.id, spec.location, spec.hasSourceMap⟩ code with
    | (.ok (), layer) => (.ok (), layer)
    | (.error failure, layer) => (.error (.evaluation failure), layer)

/-- Modules that can all be retrieved and evaluated, one after the other, lead from one namespace to
another. -/
inductive Boots (content : String → Except RetrievalFailure String) (options : WrapOptions) :
    List ModuleSpec → Layer → Layer → Prop where
  | nil (layer : Layer) : Boots content options [] layer layer
  | cons {spec : ModuleSpec} {specs : List ModuleSpec} {layer mid final : Layer}
      (first : spec.attempt options (content spec.location) layer = (.ok (), mid))
      (rest : Boots content options specs mid final) :
      Boots content options (spec :: specs) layer final

/-- One more module that can be retrieved and evaluated leads on. -/
theorem Boots.concat {content : String → Except RetrievalFailure String} {options : WrapOptions}
    {specs : List ModuleSpec} {spec : ModuleSpec} {layer mid final : Layer}
    (h : Boots content options specs layer mid)
    (hlast : spec.attempt options (content spec.location) mid = (.ok (), final)) :
    Boots content options (specs ++ [spec]) layer final := by
  induction h with
  | nil layer => exact .cons hlast (.nil final)
  | cons first _ ih => exact .cons first (ih hlast)

namespace Environment

/-! ## One module -/

variable {fresh env env' : Environment} {medium : Medium} {spec : ModuleSpec}

/-- A flush that comes to one retrieved module and nothing else evaluates it. -/
theorem flush_alone (hp : env.profile.policy = .failFast) {id code : String} {record : ModuleRecord}
    (hpending : env.order.pending = [id]) (hready : env.store.Ready id record code)
    {result : Except EvaluationFailure Unit} {layer : Layer}
    (he : evaluator env.config.wrapOptions record code env.layer = (result, layer)) :
    ∃ journal progress, env.flush = (result.mapError LoaderError.evaluation, { env with
      layer, journal, progress
      store := env.store.conclude id record result
      order := ⟨env.order.order, env.order.cursor + 1⟩ }) := by
  cases result with
  | ok u =>
    have hflush : env.orderFlush = ⟨1, env.store.conclude id record (.ok ()), layer,
        .ok (FlushReport.idle.noting id (.ok ()))⟩ := by
      rw [orderFlush, hpending, Flush.through_ready hready he (by simp)]
      rfl
    obtain ⟨hanswer, journal, hafter⟩ := env.flush_of_ok (by rw [hflush])
    rw [hflush] at hafter
    exact ⟨journal, _, Prod.ext hanswer hafter⟩
  | error failure =>
    have hflush : env.orderFlush = ⟨1, env.store.conclude id record (.error failure), layer,
        .error failure⟩ := by
      rw [orderFlush, hp, hpending, Flush.through_stops hready he]
    obtain ⟨hanswer, journal, hafter⟩ := env.flush_of_error (by rw [hflush])
    rw [hflush] at hafter
    exact ⟨journal, _, Prod.ext hanswer hafter⟩

/-- A module that is all the order waits for is evaluated when it arrives, and fails or does not. -/
theorem complete_alone (hp : env.profile.policy = .failFast)
    (hpending : env.order.pending = [spec.id])
    (hr : env.store.get? spec.id = some (.requested spec))
    (result : Except RetrievalFailure String) :
    ∃ answer store cursor layer journal progress,
      env.complete spec.id result =
        (answer, { env with
          store, layer, journal, progress
          order := ⟨env.order.order, cursor⟩ }) ∧
      ((answer = .ok () ∧ spec.attempt env.config.wrapOptions result env.layer = (.ok (), layer) ∧
          cursor = env.order.cursor + 1 ∧ ∀ id, store.get? id =
            if id = spec.id then some (spec.record .evaluated) else env.store.get? id) ∨
        ∃ cause, answer = .error (Incident.error ⟨spec.id, spec.location, cause⟩) ∧
          spec.attempt env.config.wrapOptions result env.layer = (.error cause, layer) ∧
          ∀ id, store.get? id =
            if id = spec.id then some (spec.record (.failed cause)) else env.store.get? id) := by
  obtain ⟨journal, hnoted⟩ := env.noteArrival_of_requested hr rfl result
  cases result with
  | error failure =>
    have hstops : env.stopsAt spec.id (.error failure) = true := by
      rw [stopsAt, ModuleStore.advance_of_allows hr rfl, hp]
      rfl
    obtain ⟨hanswer, hafter⟩ := complete_stopping hstops
    have hlocation : env.locationOf spec.id = spec.location := by
      simp only [locationOf, hr]
      rfl
    rw [hlocation] at hanswer
    rw [hnoted] at hafter
    refine ⟨_, _, env.order.cursor, env.layer, _, _, Prod.ext hanswer hafter, .inr ⟨_, rfl, rfl, ?_⟩⟩
    exact fun id => Table.get?_set env.store spec.id id _
  | ok code =>
    have hgoes : env.stopsAt spec.id (.ok code) = false := rfl
    rw [complete_of_goesOn hgoes, hnoted]
    obtain ⟨answer, layer, he⟩ : ∃ answer layer, env.layer.loadModule env.config.wrapOptions
        ⟨spec.id, spec.location, spec.hasSourceMap⟩ code = (answer, layer) := ⟨_, _, rfl⟩
    obtain ⟨journal', progress, hflush⟩ := @flush_alone { env with
        journal
        store := env.store.set spec.id (spec.record (.retrieved code))
        progress := ⟨env.progress.evaluated, env.progress.failed ++ lostBy spec.id (.ok code)⟩ } hp
      spec.id code (spec.record (.retrieved code)) hpending
      ⟨Table.get?_set_self env.store spec.id _, rfl⟩ answer layer he
    have hstore : ∀ id, Table.get? (ModuleStore.conclude
          (env.store.set spec.id (spec.record (.retrieved code))) spec.id
          (spec.record (.retrieved code)) answer) id =
        if id = spec.id then some (spec.record (.ofOutcome answer)) else env.store.get? id := by
      intro id
      rw [ModuleStore.conclude, Table.get?_set]
      split
      · rfl
      · rename_i hne
        exact Table.get?_set_of_ne env.store _ hne
    refine ⟨_, _, _, layer, journal', progress, hflush, ?_⟩
    cases answer with
    | ok u => exact .inl ⟨rfl, by simp only [ModuleSpec.attempt, he], rfl, hstore⟩
    | error failure =>
      exact .inr ⟨.evaluation failure, rfl, by simp only [ModuleSpec.attempt, he], hstore⟩

/-- Where its retrieval is waited for, a module that is not held back is registered and taken account
of at once. -/
theorem introduce_serial (hd : env.documentWrite = false) (ht : env.transport = .serial medium)
    (spec : ModuleSpec) : ∃ journal, env.introduce spec = { env with
      journal
      order := env.order.enqueue spec.id
      transport := .serial (medium.lookUp spec.location).2 }.complete spec.id
        (medium.content spec.location) := by
  obtain ⟨journal, -, hintroduce⟩ := env.introduce_eq spec
  refine ⟨journal, hintroduce.trans ?_⟩
  simp only [hd, Bool.false_eq_true, if_false, start, ht]
  rfl

/-! ## Modules in order -/

/-- From a new environment some modules have been loaded, one after the other, and no others have been
asked for. -/
structure Booted (fresh : Environment) (medium : Medium) (done : List ModuleSpec)
    (env : Environment) : Prop where
  config : env.config = fresh.config
  specs : env.specs = fresh.specs
  ready : env.documentWrite = false
  arrived : env.schedule.arrived = []
  transport : env.transport = .serial (medium.lookUps (done.map (·.location)))
  order : env.order = ⟨done.map (·.id), done.length⟩
  store : ∀ id, env.store.get? id = (done.map (·.record .evaluated)).find? (·.id == id)
  boots : Boots medium.content fresh.config.wrapOptions done fresh.layer env.layer

/-- From a new environment some modules have been loaded, one after the other, and the next one has
failed; no others have been asked for. -/
structure Broken (fresh : Environment) (medium : Medium) (done : List ModuleSpec)
    (spec : ModuleSpec) (cause : FailureCause) (env : Environment) : Prop where
  transport : env.transport = .serial (medium.lookUps ((done ++ [spec]).map (·.location)))
  order : env.order.order = (done ++ [spec]).map (·.id)
  store : ∀ id, env.store.get? id =
    (done.map (·.record .evaluated) ++ [spec.record (.failed cause)]).find? (·.id == id)
  breaks : ∃ mid, Boots medium.content fresh.config.wrapOptions done fresh.layer mid ∧
    spec.attempt fresh.config.wrapOptions (medium.content spec.location) mid =
      (.error cause, env.layer)

/-- With one more record behind them, records are found as before, but for the new one. -/
theorem find?_concat_record (done : List ModuleSpec) (spec : ModuleSpec) (state : ModuleState)
    (hnew : (done.map (·.record .evaluated)).find? (·.id == spec.id) = none) (id : String) :
    (done.map (·.record .evaluated) ++ [spec.record state]).find? (·.id == id) =
      if id = spec.id then some (spec.record state)
      else (done.map (·.record .evaluated)).find? (·.id == id) := by
  rw [List.find?_append]
  by_cases he : id = spec.id
  · rw [if_pos he, he, hnew]
    simp [ModuleSpec.record]
  · rw [if_neg he]
    simp [ModuleSpec.record, Ne.symm he]

variable {done : List ModuleSpec}

/-- Loading does not change where modules are. -/
theorem Booted.specFor (h : Booted fresh medium done env) : env.specFor = fresh.specFor :=
  specFor_congr h.config h.specs

/-- The next module is loaded after the others, or fails there. -/
theorem Booted.introduce (h : Booted fresh medium done env)
    (hp : fresh.profile.policy = .failFast) (hnew : env.store.get? spec.id = none) :
    (({ env with store := (env.store.ensure spec).2 }.introduce spec).1 = .ok () ∧
        Booted fresh medium (done ++ [spec])
          ({ env with store := (env.store.ensure spec).2 }.introduce spec).2) ∨
      ∃ cause, ({ env with store := (env.store.ensure spec).2 }.introduce spec).1 =
          .error (Incident.error ⟨spec.id, spec.location, cause⟩) ∧
        Broken fresh medium done spec cause
          ({ env with store := (env.store.ensure spec).2 }.introduce spec).2 := by
  obtain ⟨journal, hstarted⟩ := @introduce_serial { env with store := (env.store.ensure spec).2 }
    (medium.lookUps (done.map (·.location))) h.ready h.transport spec
  have hmedium : ((medium.lookUps (done.map (·.location))).lookUp spec.location).2 =
      medium.lookUps ((done ++ [spec]).map (·.location)) := by
    rw [List.map_append, List.map_singleton, Medium.lookUps_append, Medium.lookUp_eq_lookUps]
  rw [hmedium, medium.content_lookUps] at hstarted
  have hpolicy : env.profile.policy = .failFast := by
    unfold Environment.profile host
    rw [h.config]
    exact hp
  have hpending : (env.order.enqueue spec.id).pending = [spec.id] := by
    rw [h.order, LoadOrder.pending, LoadOrder.enqueue, List.drop_append_of_le_length (by simp)]
    simp
  have hrequested : (env.store.ensure spec).2.get? spec.id = some (.requested spec) := by
    rw [ModuleStore.get?_ensure, if_pos ⟨rfl, hnew⟩]
  have hothers : ∀ id, id ≠ spec.id → (env.store.ensure spec).2.get? id = env.store.get? id := by
    intro id hne
    rw [ModuleStore.get?_ensure, if_neg fun hc => hne hc.1]
  obtain ⟨answer, store, cursor, layer, journal', progress, hcomplete, hcases⟩ :=
    @complete_alone { env with
      store := (env.store.ensure spec).2
      journal
      order := env.order.enqueue spec.id
      transport := .serial (medium.lookUps ((done ++ [spec]).map (·.location))) } spec hpolicy hpending
      hrequested (medium.content spec.location)
  have hunknown : (done.map (·.record .evaluated)).find? (·.id == spec.id) = none :=
    (h.store spec.id).symm.trans hnew
  have hstore : ∀ state, (∀ id, store.get? id = if id = spec.id then some (spec.record state)
      else (env.store.ensure spec).2.get? id) → ∀ id, store.get? id =
        (done.map (·.record .evaluated) ++ [spec.record state]).find? (·.id == id) := by
    intro state hs id
    rw [find?_concat_record done spec state hunknown, hs]
    split
    · rfl
    · rename_i hne
      rw [hothers id hne, h.store]
  have horder : (env.order.enqueue spec.id).order = (done ++ [spec]).map (·.id) := by
    rw [h.order, LoadOrder.enqueue, List.map_append]
    rfl
  have hattempt : spec.attempt env.config.wrapOptions (medium.content spec.location) env.layer =
      spec.attempt fresh.config.wrapOptions (medium.content spec.location) env.layer := by
    rw [h.config]
  rw [hstarted, hcomplete]
  rcases hcases with ⟨hanswer, hok, hcursor, hs⟩ | ⟨cause, hanswer, hfails, hs⟩
  · refine .inl ⟨hanswer, ⟨h.config, h.specs, h.ready, h.arrived, rfl, ?_, ?_, ?_⟩⟩
    · simp only [horder, hcursor, List.length_append, List.length_singleton]
      rw [LoadOrder.enqueue, h.order]
    · have hrecords : (done ++ [spec]).map (·.record .evaluated) =
          done.map (·.record .evaluated) ++ [spec.record .evaluated] := List.map_append
      exact fun id => (hstore .evaluated hs id).trans (by rw [hrecords])
    · exact h.boots.concat (hattempt.symm.trans hok)
  · exact .inr ⟨cause, hanswer, rfl, horder, hstore _ hs, env.layer, h.boots,
      hattempt.symm.trans hfails⟩

/-- Other modules than those were not looked at. -/
theorem Broken.unknown {cause : FailureCause} (h : Broken fresh medium done spec cause env)
    {id : String} (hid : id ∉ (done ++ [spec]).map (·.id)) :
    env.store.get? id = none ∧ id ∉ env.order.order := by
  rw [h.store, h.order, List.find?_eq_none]
  refine ⟨fun record hr he => hid ?_, hid⟩
  rw [List.map_append, List.mem_append]
  rcases List.mem_append.1 hr with hr | hr
  · obtain ⟨other, hother, rfl⟩ := List.mem_map.1 hr
    exact .inl (List.mem_map.2 ⟨other, hother, beq_iff_eq.1 he⟩)
  · rw [List.mem_singleton.1 hr] at he
    exact .inr (List.mem_singleton.2 (beq_iff_eq.1 he).symm)

/-- Of some paths, all are loaded in order, or those before the first that fails. -/
theorem Booted.register {asked : List String}
    (h : Booted fresh medium (asked.eraseDups.map fresh.specFor) env)
    (hp : fresh.profile.policy = .failFast) (hn : ∀ id, (fresh.specFor id).id = id)
    (paths : List String) :
    ((env.register paths).1 = .ok () ∧
        Booted fresh medium ((asked ++ paths).eraseDups.map fresh.specFor)
          (env.register paths).2) ∨
      ∃ before spec later cause,
        (asked ++ paths).eraseDups.map fresh.specFor = before ++ spec :: later ∧
        (∀ other ∈ later, other.id ∉ (before ++ [spec]).map (·.id)) ∧
        (env.register paths).1 = .error (Incident.error ⟨spec.id, spec.location, cause⟩) ∧
        Broken fresh medium before spec cause (env.register paths).2 := by
  induction paths generalizing asked env with
  | nil =>
    rw [List.append_nil]
    exact .inl ⟨rfl, h⟩
  | cons path paths ih =>
    rw [List.append_cons]
    have hspec : env.specFor path = fresh.specFor path := congrFun h.specFor path
    have hknown : env.store.get? (env.specFor path).id = none ↔ path ∉ asked := by
      rw [hspec, hn, h.store, List.find?_eq_none]
      simp only [ModuleSpec.record, List.mem_map, exists_exists_and_eq_and, hn, beq_iff_eq,
        List.mem_eraseDups, forall_exists_index, and_imp, forall_apply_eq_imp_iff₂]
      exact List.forall_mem_ne'
    by_cases hmem : path ∈ asked
    · -- A path that was asked for before is passed over.
      have hsame : (asked ++ [path]).eraseDups = asked.eraseDups := by
        simp [List.eraseDups_append, List.cons_removeAll, hmem]
      rw [register_cons_known env paths fun hnone => hknown.1 hnone hmem]
      rw [← hsame] at h
      exact ih h
    · have hdups : (asked ++ [path]).eraseDups = asked.eraseDups ++ [path] := by
        simp [List.eraseDups_append, List.cons_removeAll, hmem, List.eraseDups_cons]
      have hmap : (asked ++ [path]).eraseDups.map fresh.specFor =
          asked.eraseDups.map fresh.specFor ++ [env.specFor path] := by
        rw [hdups, List.map_append, List.map_singleton, hspec]
      have hnew := hknown.2 hmem
      rw [register_cons_new env paths hnew]
      rcases h.introduce hp hnew with ⟨hok, hbooted⟩ | ⟨cause, hanswer, hbroken⟩
      · rw [← hmap] at hbooted
        rw [andThen_of_ok hok]
        exact ih hbooted
      · -- The paths after the one that fails are those that are neither it nor were asked for before.
        have hlater : (asked ++ [path] ++ paths).eraseDups.map fresh.specFor =
            asked.eraseDups.map fresh.specFor ++ env.specFor path ::
              (paths.removeAll (asked ++ [path])).eraseDups.map fresh.specFor := by
          rw [List.eraseDups_append, List.map_append, hmap, List.append_assoc,
            List.singleton_append]
        rw [andThen_of_error hanswer]
        refine .inr ⟨_, _, _, cause, hlater, ?_, rfl, hbroken⟩
        rintro other hother hbefore
        obtain ⟨id, hid, rfl⟩ := List.mem_map.1 hother
        rw [List.mem_eraseDups, List.removeAll, List.mem_filter] at hid
        rw [← hmap, map_id_specFor hn, hn, List.mem_eraseDups] at hbefore
        simp [hbefore] at hid

/-- From a new environment that holds nothing back, no modules have been loaded yet. -/
theorem Fresh.booted (h : env.Fresh) (hd : env.documentWrite = false)
    (ht : env.transport = .serial medium) : Booted env medium [] env where
  config := rfl
  specs := rfl
  ready := hd
  arrived := by
    rw [h.schedule]
    rfl
  transport := by rw [ht, List.map_nil, medium.lookUps_nil]
  order := h.order
  store id := by
    rw [h.store]
    rfl
  boots := .nil env.layer

/-- Where retrievals are waited for and nothing is held back, loading is registering, after which
nothing has arrived that would have to be taken account of. -/
theorem load_of_serial (hb : env.profile.behavior = .retrieve) (hd : env.documentWrite = false)
    (ht : env.transport = .serial medium) (caller : Caller) (paths : List String) :
    env.load caller paths = andThen (env.register paths) (·.drain) := by
  have hstarts : env.canStart caller = true := by
    rw [canStart, ht]
    rfl
  rw [load, loadWith, hb]
  simp only [hd, Bool.and_false, Bool.false_eq_true, if_false, retrieveAll, hstarts]
  rfl

/-- With a new environment that stops at failures, some paths are loaded in order, or those before the
first that fails. -/
theorem Fresh.load_cases (h : env.Fresh) (hb : env.profile.behavior = .retrieve)
    (hp : env.profile.policy = .failFast) (hd : env.documentWrite = false)
    (ht : env.transport = .serial medium) (caller : Caller) (paths : List String) :
    ((env.load caller paths).1 = .ok () ∧
        Booted env medium (paths.eraseDups.map env.specFor) (env.load caller paths).2) ∨
      ∃ before spec later cause, paths.eraseDups.map env.specFor = before ++ spec :: later ∧
        (∀ other ∈ later, other.id ∉ (before ++ [spec]).map (·.id)) ∧
        (env.load caller paths).1 = .error (Incident.error ⟨spec.id, spec.location, cause⟩) ∧
        Broken env medium before spec cause (env.load caller paths).2 := by
  have hregister := @Booted.register env env medium [] (h.booted hd ht) hp (id_specFor h.named) paths
  rw [List.nil_append] at hregister
  rw [load_of_serial hb hd ht]
  rcases hregister with ⟨hok, hbooted⟩ | ⟨before, spec, later, cause, hmodules, hlater, herror, hbroken⟩
  · have hdrained : andThen (env.register paths) (·.drain) = (.ok (), (env.register paths).2) := by
      rw [andThen_of_ok hok, drain, hbooted.arrived]
      rfl
    rw [hdrained]
    exact .inl ⟨rfl, hbooted⟩
  · rw [andThen_of_error herror]
    exact .inr ⟨before, spec, later, cause, hmodules, hlater, rfl, hbroken⟩

/-- On a host that waits for each retrieval, loading some paths with a new environment loads their
modules one after the other, and stops at the first that cannot be retrieved or whose evaluation
fails after the ones before it; the ones after that are never looked at. -/
theorem load_boots (config : Configuration) (medium : Medium) {engine : Script.Engine}
    (made : Environment)
    (hmake : make config (.serial medium) engine = .ok made)
    (hhost : config.host = .worker ∨ config.host = .node ∨ config.host = .engine)
    (specs : List ModuleSpec) (caller : Caller) (paths : List String) :
    let env := made.withSpecs specs
    let answer := (env.load caller paths).1
    let after := (env.load caller paths).2
    let modules := paths.eraseDups.map env.specFor
    modules.map (·.id) = paths.eraseDups ∧
      (answer = .ok () ∧ Booted env medium modules after ∨
        ∃ before spec later cause, modules = before ++ spec :: later ∧
          answer = .error (Incident.error ⟨spec.id, spec.location, cause⟩) ∧
          Broken env medium before spec cause after ∧
          ∀ other ∈ later,
            after.store.get? other.id = none ∧ other.id ∉ after.order.order) := by
  intro env answer after modules
  obtain ⟨hmade, hconfig, htransport⟩ := fresh_of_make hmake
  have hfresh : env.Fresh := hmade.withSpecs specs
  obtain ⟨hpolicy, hbehavior, hheld, hchoice⟩ : config.host.profile.policy = .failFast ∧
      config.host.profile.behavior = .retrieve ∧ config.host.profile.documentWrite = false ∧
      chooseTransport config.host (.serial medium) = .ok (.serial medium) := by
    rcases hhost with hhost | hhost | hhost <;> rw [hhost] <;> exact ⟨rfl, rfl, rfl, rfl⟩
  have hprofile : env.profile = config.host.profile := congrArg (·.host.profile) hconfig
  rw [← hprofile] at hpolicy hbehavior hheld
  have hserial : env.transport = .serial medium :=
    (Except.ok.inj (hchoice.symm.trans htransport)).symm
  have hready : env.documentWrite = false := by
    rw [hfresh.documentWrite, hheld]
    rfl
  refine ⟨map_id_specFor (id_specFor hfresh.named) _, ?_⟩
  rcases hfresh.load_cases hbehavior hpolicy hready hserial caller paths with
    hbooted | ⟨before, spec, later, cause, hmodules, hlater, herror, hbroken⟩
  · exact .inl hbooted
  · exact .inr ⟨before, spec, later, cause, hmodules, herror, hbroken,
      fun other hother => hbroken.unknown (hlater other hother)⟩

/-- Of four modules the third is offline: the call fails with it after the first two were evaluated. -/
theorem load_boots_offline :
    let config := { Configuration.default with host := .node, aliases := [] }
    let bundle := Bundle.empty.add [("a.js", "log('a')"), ("b.js", "log('b')"), ("d.js", "")] []
      [("c.js", .network "offline")]
    let specs := ["a", "b", "c", "d"].map fun id => ModuleSpec.mk id (id ++ ".js") false
    let paths := ["a", "b", "a", "c", "d"]
    ∃ made, make config (.serial (.bundle bundle)) = .ok made ∧
      let env := made.withSpecs specs
      let after := (env.load .outsideEventLoop paths).2
      after.layer.engine.output = ["a", "b"] ∧ after.store.get? "d" = none ∧
        ∃ before spec later cause, paths.eraseDups.map env.specFor = before ++ spec :: later ∧
          Incident.error ⟨spec.id, spec.location, cause⟩ = .retrieval "c" "c.js" (.network "offline") ∧
          Broken env (.bundle bundle) before spec cause after := by
  intro config bundle specs paths
  obtain ⟨made, hmade, hanswer, houtput, hunknown⟩ :
      ∃ made, make config (.serial (.bundle bundle)) = .ok made ∧
      ((made.withSpecs specs).load .outsideEventLoop paths).1 =
        .error (.retrieval "c" "c.js" (.network "offline")) ∧
      ((made.withSpecs specs).load .outsideEventLoop paths).2.layer.engine.output = ["a", "b"] ∧
      ((made.withSpecs specs).load .outsideEventLoop paths).2.store.get? "d" = none :=
    ⟨_, rfl, by decide +kernel +revert⟩
  obtain ⟨-, ⟨hok, -⟩ | ⟨before, spec, later, cause, hmodules, herror, hbroken, -⟩⟩ :=
    load_boots config (.bundle bundle) made hmade (.inr (.inl rfl)) specs .outsideEventLoop paths
  · cases hanswer.symm.trans hok
  · have hcause := Except.error.inj (herror.symm.trans hanswer)
    exact ⟨made, hmade, houtput, hunknown, before, spec, later, cause, hmodules, hcause, hbroken⟩

end Environment

end ModuleLoader
