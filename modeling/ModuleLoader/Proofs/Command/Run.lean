import ModuleLoader.Command.Outcome
import ModuleLoader.Files.Tree
import ModuleLoader.Proofs.Environment.InOrder
import ModuleLoader.Proofs.Environment.Phase
import ModuleLoader.Proofs.Manifest.Ids

/-!
# Running a manifest

A run loads all modules of a manifest in a new environment that is told where they are.  It ends with
status zero just when every module is loaded in the end; and where modules are retrieved, what it
prints in between are the lines of the modules, evaluated in the order of the manifest.  Main
statement: `run_status_iff`.
-/

set_option autoImplicit false

namespace ModuleLoader

/-- Only a browser goes on after failures, and only a browser holds modules back. -/
theorem Host.profile_of_ne_browser (host : Host) (h : host ≠ .browser) :
    host.profile.policy = .failFast ∧ host.profile.documentWrite = false := by
  cases host <;> first | contradiction | exact ⟨rfl, rfl⟩

/-- A host that retrieves nothing counts modules as loaded, or refuses to load. -/
theorem Host.behavior_of_not_retrieve (host : Host) (h : host.profile.behavior ≠ .retrieve)
    (hs : host ≠ .static) :
    host.profile.behavior = .markOnly ∨ host.profile.behavior = .alwaysLoaded := by
  cases host <;> first | contradiction | exact .inl rfl | exact .inr rfl

namespace Command

open Environment
open ModuleLoader.Namespace (Layer)

/-! ## The environment of a run -/

/-- What the modules under a base are retrieved from. -/
def mediumAt (files : FileSystem) (place : Remote) (base : String) : Medium :=
  if isRemote base then .remote place else .files files

/-- An environment in which a manifest is about to be run. -/
structure Prepared (files : FileSystem) (place : Remote) (m : Manifest) (env : Environment) :
    Prop where
  fresh : env.Fresh
  /-- The modules are retrieved from where the manifest says. -/
  specs : m.ids.map env.specFor = m.specs env.config.base
  transport : env.profile.behavior = .retrieve →
    env.transport = if env.host = .browser then .concurrent (mediumAt files place env.config.base)
      else .serial (mediumAt files place env.config.base)
  concurrent : env.host ≠ .browser → env.transport.isConcurrent = false

/-- A host that retrieves has files or remote places to retrieve from, and only a browser goes to
them beside the caller. -/
theorem defaultTransport_eq {config : Configuration} {files : FileSystem} {place : Remote}
    {transport : Transport} (h : defaultTransport config files place = .ok transport)
    (hb : config.host.profile.behavior = .retrieve) :
    transport = if config.host = .browser then .concurrent (mediumAt files place config.base)
      else .serial (mediumAt files place config.base) := by
  unfold defaultTransport at h
  unfold mediumAt
  cases hhost : config.host <;> cases hremote : isRemote config.base <;>
    simp_all [Host.profile, HostProfile.serial, HostProfile.bundled]

/-- A host that retrieves nothing has no transport. -/
theorem chooseTransport_of_not_retrieves {host : Host} {given chosen : Transport}
    (h : chooseTransport host given = .ok chosen) (hb : host.profile.behavior ≠ .retrieve) :
    chosen = .none := by
  unfold chooseTransport at h
  cases host <;> first | contradiction | exact (Except.ok.inj h).symm

/-- A host that retrieves uses the transport that it is given. -/
theorem chooseTransport_of_retrieves {host : Host} {transport : Transport}
    (hr : host.profile.retrieval ≠ .none) (ht : transport ≠ .none) :
    chooseTransport host transport = .ok transport := by
  unfold chooseTransport
  split
  · contradiction
  · contradiction
  · rfl

/-- The environment of a run is a new one on the transport of its host, told where the modules of the
manifest are. -/
theorem runEnvironment_ok {s : Surroundings} {a : RunArguments} {m : Manifest} {place : Remote}
    {env : Environment} (h : runEnvironment s a m place = .ok env) :
    ∃ transport made, defaultTransport env.config s.files place = .ok transport ∧
      make env.config transport = .ok made ∧ env = made.withSpecs (m.specs env.config.base) := by
  cases hc : surroundingConfiguration s with
  | error e => simp [runEnvironment, hc, bind, Except.bind] at h
  | ok c =>
    cases hv : (chosenConfiguration c a m).validate with
    | error e => simp [runEnvironment, hc, hv, bind, Except.bind] at h
    | ok u =>
      cases ht : defaultTransport (chosenConfiguration c a m) s.files place with
      | error e => simp [runEnvironment, forHost, hc, hv, ht, bind, Except.bind] at h
      | ok transport =>
        cases hm : make (chosenConfiguration c a m) transport with
        | error e => simp [runEnvironment, forHost, hc, hv, ht, hm, bind, Except.bind] at h
        | ok made =>
          simp only [runEnvironment, forHost, hc, hv, ht, hm, bind, Except.bind, pure, Except.pure,
            Except.ok.injEq] at h
          have hconfig : env.config = chosenConfiguration c a m := by
            rw [← h]
            exact (fresh_of_make hm).2.1
          rw [hconfig]
          exact ⟨transport, made, ht, hm, h.symm⟩

/-- What is known of the environment of a run, if there is one, is known of an environment. -/
theorem exists_runEnvironment {α : Type} {s : Surroundings} {a : RunArguments} {m : Manifest}
    {place : Remote} {f : Environment → α} {x : α}
    (h : (runEnvironment s a m place).toOption.map f = some x) :
    ∃ env, runEnvironment s a m place = .ok env ∧ f env = x := by
  cases hstart : runEnvironment s a m place with
  | error e => simp [hstart, Except.toOption] at h
  | ok env => exact ⟨env, rfl, by simpa [hstart, Except.toOption] using h⟩

/-- The modules of a run are evaluated in a new namespace on a new engine. -/
theorem layer_of_runEnvironment {s : Surroundings} {a : RunArguments} {m : Manifest} {place : Remote}
    {env : Environment} (h : runEnvironment s a m place = .ok env) :
    env.layer = .make (readyEngine env.profile .initial) := by
  obtain ⟨transport, made, -, hmake, henv⟩ := runEnvironment_ok h
  have hlayer : env.layer = made.layer := by rw [henv]; rfl
  exact hlayer.trans (layer_of_make hmake)

/-- The environment of a run is prepared for its manifest. -/
theorem prepared_of_runEnvironment {s : Surroundings} {a : RunArguments} {m : Manifest}
    {place : Remote} {env : Environment} (h : runEnvironment s a m place = .ok env)
    (hids : m.ids.Nodup) : Prepared s.files place m env := by
  obtain ⟨transport, made, htransport, hmake, henv⟩ := runEnvironment_ok h
  obtain ⟨hmade, hconfig, hchosen⟩ := fresh_of_make hmake
  have hgiven : env.transport = made.transport := by
    rw [henv]
    rfl
  have htransports : env.profile.behavior = .retrieve → env.transport =
      if env.host = .browser then .concurrent (mediumAt s.files place env.config.base)
      else .serial (mediumAt s.files place env.config.base) := by
    intro hb
    have hmedium := defaultTransport_eq htransport hb
    have hsome : transport ≠ .none := by
      rw [hmedium]
      split <;> nofun
    rw [chooseTransport_of_retrieves (env.config.host.retrieval_of_behavior hb) hsome] at hchosen
    rw [hgiven, ← Except.ok.inj hchosen]
    exact hmedium
  refine ⟨?_, ?_, htransports, fun hhost => ?_⟩
  · rw [henv]
    exact hmade.withSpecs _
  · rw [← m.map_id_specs env.config.base, List.map_map]
    refine (List.map_congr_left fun spec hs => ?_).trans (List.map_id _)
    show env.specFor spec.id = spec
    rw [henv, specFor_withSpecs hmake, Manifest.get?_specs hids hs]
    rfl
  · by_cases hb : env.profile.behavior = .retrieve
    · rw [htransports hb, if_neg hhost]
      rfl
    · rw [hgiven, chooseTransport_of_not_retrieves hchosen hb]
      rfl

/-! ## Loading a manifest -/

/-- The modules of a manifest are registered, and let go in a browser. -/
theorem startManifest_eq {env : Environment} (h : env.Fresh) (m : Manifest) (w : Meanwhile) :
    startManifest env m w = if env.host = .browser then
      andThen (andThen (env.load .insideEventLoop m.ids) (turning w.loaded))
        (·.documentReady .insideEventLoop)
      else andThen (env.load .insideEventLoop m.ids) (turning w.loaded) := by
  have hhost : ((env.load .insideEventLoop m.ids).2.turnAll w.loaded).host = env.host :=
    (host_turnAll _ _).trans (congrArg (·.host) (h.config_load .insideEventLoop m.ids))
  rw [startManifest]
  rcases hload : env.load .insideEventLoop m.ids with ⟨e | u, after⟩
  · exact (ite_self _).symm
  · rw [hload] at hhost
    simp only [hhost]
    rfl

/-- Loading a manifest is loading its modules, ending the phase in which a browser holds them back, and
settling, with turns in between. -/
theorem loadManifest_eq {env : Environment} (h : env.Fresh) (m : Manifest) (w : Meanwhile) :
    loadManifest env m w = thenSettle (if env.host = .browser then
      env.loadReady .insideEventLoop m.ids w.loaded w.ready
      else andThen (env.load .insideEventLoop m.ids) (turning (w.loaded ++ w.ready))) := by
  have hsettle : loadManifest env m w =
      thenSettle (andThen (startManifest env m w) (turning w.ready)) := by
    rw [loadManifest]
    rcases startManifest env m w with ⟨e | u, started⟩ <;> rfl
  rw [hsettle, startManifest_eq h, ← andThen_turning_turning]
  split <;> rfl

/-- On any host but a browser, turns make no difference to a load. -/
theorem Prepared.load_turning {files : FileSystem} {place : Remote} {m : Manifest} {env : Environment}
    (h : Prepared files place m env) (hhost : env.host ≠ .browser) (turns : List Nat) :
    andThen (env.load .insideEventLoop m.ids) (turning turns) =
      env.load .insideEventLoop m.ids := by
  refine andThen_turning ?_ turns
  have hkind := h.concurrent hhost
  obtain ⟨-, hd⟩ := env.host.profile_of_ne_browser hhost
  have hready : env.documentWrite = false := by
    rw [h.fresh.documentWrite, Environment.profile, hd, Bool.false_and]
  rw [← hkind]
  unfold load loadWith
  split
  · rfl
  · rw [foldl_setLoaded_frame]
  · rw [foldl_setLoaded_frame]
  · rename_i hb
    have hsome : env.transport ≠ .none := h.fresh.transport (env.host.retrieval_of_behavior hb)
    have hstart : env.canStart .insideEventLoop = true := by simp [canStart]
    rw [hready, Bool.and_false, if_neg (by simp)]
    exact (CarriesOut.retrieveAll hsome (fun _ => hstart) m.ids).concurrent

/-- Where modules are retrieved, all modules of a manifest are loaded in order, whatever turns their
retrievals have in between. -/
theorem Prepared.endsInOrder {files : FileSystem} {place : Remote} {m : Manifest} {env : Environment}
    (h : Prepared files place m env) (hids : m.ids.Nodup) (hb : env.profile.behavior = .retrieve)
    (w : Meanwhile) :
    env.EndsInOrder (mediumAt files place env.config.base).content (m.specs env.config.base)
      (loadManifest env m w) := by
  have htransport := h.transport hb
  rw [loadManifest_eq h.fresh, ← h.specs]
  by_cases hhost : env.host = .browser
  · rw [if_pos hhost] at htransport ⊢
    refine h.fresh.endsInOrder_browser hhost ?_ hids w.loaded w.ready
    rw [htransport]
    rintro medium (hm | hm) <;> cases hm
    rfl
  · rw [if_neg hhost] at htransport ⊢
    obtain ⟨hp, hd⟩ := env.host.profile_of_ne_browser hhost
    have hready : env.documentWrite = false := by
      rw [h.fresh.documentWrite, Environment.profile, hd, Bool.false_and]
    rw [h.load_turning hhost]
    exact h.fresh.endsInOrder_serial hb hp hready htransport .insideEventLoop hids

/-- Where modules are retrieved, a module is loaded when its record says so. -/
theorem isLoaded_of_retrieves {env : Environment} (hb : env.profile.behavior = .retrieve)
    (id : String) : env.isLoaded id = env.store.isLoaded id := by
  simp [Environment.isLoaded, hb]

/-- A run that need not watch files does well just when its load ends with a complete report. -/
theorem status_loadOutcome {s : Surroundings} {a : RunArguments} {m : Manifest} {env : Environment}
    {w : Meanwhile} (hwatch : a.watch = false) : (loadOutcome s a m env w).status = 0 ↔
      ∃ report, (loadManifest env m w).1 = .ok report ∧ report.isComplete = true := by
  unfold loadOutcome
  rcases loadManifest env m w with ⟨e | report, after⟩
  · simp
  · simp [hwatch]

/-- What a run prints that need not watch files. -/
theorem output_loadOutcome {s : Surroundings} {a : RunArguments} {m : Manifest} {env : Environment}
    {w : Meanwhile} (hwatch : a.watch = false) : (loadOutcome s a m env w).output =
      loadingLine m (loadManifest env m w).2.host :: (loadManifest env m w).2.layer.engine.output ++
        (loadManifest env m w).1.toOption.toList.map doneLine := by
  unfold loadOutcome
  rcases loadManifest env m w with ⟨e | report, after⟩
  · simp [takeOutput, Except.toOption]
  · simp [hwatch, takeOutput, Except.toOption]

/-- A run that comes to load a manifest ends with what the load comes to. -/
theorem run_eq_loadOutcome {s : Surroundings} {a : RunArguments} {w : Meanwhile} {m : Manifest}
    {env : Environment} (hread : Manifest.fromFile s.files a.manifest = .ok m)
    (hstart : runEnvironment s a m w.place = .ok env) : run s a w = loadOutcome s a m env w := by
  simp only [run, hread, hstart]

/-- A run that comes to load a manifest, on a host that can load modules and without watching files,
ends with status zero just when every module of the manifest is loaded in the end.  Where modules are
retrieved, from files or from remote places that may answer anything, no two have one id, and between
the first line and the last one the run prints the lines that they write when they are evaluated in the
order of the manifest, up to the first that stops the load; and it ends with status zero just when this
evaluates all of them.  The order in which retrievals arrive makes no difference. -/
theorem run_status_iff (s : Surroundings) (a : RunArguments) (w : Meanwhile) (m : Manifest)
    (env : Environment) (hread : Manifest.fromFile s.files a.manifest = .ok m)
    (hstart : runEnvironment s a m w.place = .ok env) (hhost : env.host ≠ .static)
    (hwatch : a.watch = false) :
    ((run s a w).status = 0 ↔ ∀ id ∈ m.ids, (loadManifest env m w).2.isLoaded id = true) ∧
      (env.profile.behavior = .retrieve → m.ids.Nodup ∧
        let (all, layer) := evaluateInOrder env.profile.policy
          (mediumAt s.files w.place env.config.base).content env.config.wrapOptions
          (m.specs env.config.base) (.make (readyEngine env.profile .initial))
        ((run s a w).status = 0 ↔ all = true) ∧
          (run s a w).output = loadingLine m env.host :: layer.engine.output ++
            (loadManifest env m w).1.toOption.toList.map doneLine) := by
  have hids := Manifest.nodup_ids_of_fromFile hread
  have hprepared := prepared_of_runEnvironment hstart hids
  rw [run_eq_loadOutcome hread hstart, status_loadOutcome hwatch, output_loadOutcome hwatch]
  by_cases hb : env.profile.behavior = .retrieve
  · have hend := hprepared.endsInOrder hids hb w
    have hafter : (loadManifest env m w).2.host = env.host := congrArg (·.host) hend.config
    refine ⟨?_, fun _ => ⟨hids, ?_⟩⟩
    · have hbehavior : (loadManifest env m w).2.profile.behavior = .retrieve := by
        rw [Environment.profile, hafter]
        exact hb
      rw [hend.complete, ← hend.loaded, ← m.map_id_specs env.config.base, List.forall_mem_map]
      simp only [isLoaded_of_retrieves hbehavior]
    · rw [← layer_of_runEnvironment hstart, hafter, hend.layer]
      exact ⟨hend.complete, rfl⟩
  · refine ⟨?_, fun hretrieves => absurd hretrieves hb⟩
    have hcounts := env.host.behavior_of_not_retrieve hb hhost
    have hbrowser : env.host ≠ .browser := by
      intro hbrowser
      rw [Environment.profile, hbrowser] at hb
      exact hb rfl
    obtain ⟨hcomplete, hloaded⟩ := hprepared.fresh.thenSettle_counting hcounts .insideEventLoop m.ids
    rw [loadManifest_eq hprepared.fresh, if_neg hbrowser, hprepared.load_turning hbrowser]
    refine iff_of_true hcomplete fun id hid => ?_
    rw [Environment.isLoaded, hloaded id hid, Bool.or_true]

/-- A browser with a remote base, whose second module arrives before the first.  It passes over a module
whose evaluation fails but not over one that is not found: it prints the lines of the first two modules,
and ends with status one. -/
theorem run_status_iff_thrown :
    let manifest := "\x7b\"base\": \"http://x\", \"modules\": [\x7b\"id\": \"a.js\"\x7d, " ++
      "\x7b\"id\": \"b.js\"\x7d, \x7b\"id\": \"c.js\"\x7d]\x7d"
    let tree := FileTree.mk [(["m.json"], .file (some manifest))]
    let place : Remote := ⟨fun location =>
      if location = "http://x/a.js" then .ok ⟨200, .ok "log('a')\nthrow 'boom'"⟩
      else if location = "http://x/b.js" then .ok ⟨200, .ok "log('b')"⟩
      else .ok ⟨404, .ok "log('no such module')"⟩⟩
    let s := Surroundings.mk (tree.system []) [] none
    let a := RunArguments.mk "m.json" (some .browser) none false false false
    let w := Meanwhile.mk place [] [1, 0]
    ∃ m env, Manifest.fromFile s.files a.manifest = .ok m ∧ runEnvironment s a m w.place = .ok env ∧
      env.host ≠ .static ∧ a.watch = false ∧
      (run s a w).output =
        [loadingLine m .browser, "a", "b", doneLine ⟨["b.js"], ["c.js", "a.js"], some "c.js", 1⟩] ∧
      ¬ ∀ id ∈ m.ids, (loadManifest env m w).2.isLoaded id = true := by
  intro manifest tree place s a w
  obtain ⟨m, hread, hhost, hstatus, houtput⟩ : ∃ m, Manifest.fromFile s.files a.manifest = .ok m ∧
      (runEnvironment s a m w.place).toOption.map (·.host) = some .browser ∧ (run s a w).status = 1 ∧
      (run s a w).output =
        [loadingLine m .browser, "a", "b", doneLine ⟨["b.js"], ["c.js", "a.js"], some "c.js", 1⟩] :=
    ⟨⟨some "http://x", [⟨"a.js", none, false⟩, ⟨"b.js", none, false⟩, ⟨"c.js", none, false⟩]⟩,
      by decide +kernel +revert⟩
  obtain ⟨env, hstart, hbrowser⟩ := exists_runEnvironment hhost
  have hnot : env.host ≠ .static := by simp [hbrowser]
  obtain ⟨hiff, -⟩ := run_status_iff s a w m env hread hstart hnot rfl
  refine ⟨m, env, hread, hstart, hnot, rfl, houtput, fun hall => ?_⟩
  cases hstatus.symm.trans (hiff.2 hall)

end Command

end ModuleLoader
