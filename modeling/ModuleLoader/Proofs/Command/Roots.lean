import ModuleLoader.Proofs.Command.Run
import ModuleLoader.Proofs.Namespace.RootTable

/-!
# Listing the roots of a manifest

The roots that the modules of a manifest declare are listed without evaluating anything, from the files
under the base that the manifest names.  A run of the manifest registers the roots of the modules that
it retrieves, from the base that was chosen: the base of the manifest is only one way to choose it.  Main
statement: `roots_of_run`, when the two are the same.
-/

set_option autoImplicit false

namespace ModuleLoader.Command

open Environment
open ModuleLoader.Namespace (Layer WrapOptions addName declaredRoots)

/-! ## Roots of texts -/

/-- The roots that some texts declare, in the order they are first seen. -/
def rootsIn (sources : List String) : List String := (sources.flatMap declaredRoots).eraseDups

/-- Adding the roots of some texts one text after the other gathers the roots in them. -/
theorem foldl_declaredRoots (sources : List String) :
    sources.foldl (fun names source => (declaredRoots source).foldl addName names) [] =
      rootsIn sources := by
  rw [← List.foldl_flatMap]
  exact Namespace.foldl_addName_eraseDups [] _

/-- Some places hold some texts, one each. -/
def Holding {ε : Type} (content : String → Except ε String) (locations texts : List String) : Prop :=
  locations.map content = texts.map .ok

/-- No places hold no texts. -/
theorem holding_nil {ε : Type} {content : String → Except ε String} {texts : List String} :
    Holding content [] texts ↔ texts = [] := by
  rw [Holding, List.map_nil, eq_comm, List.map_eq_nil_iff]

/-- The first place holds the first text, and the others the others. -/
theorem holding_cons {ε : Type} {content : String → Except ε String} {location : String}
    {locations texts : List String} : Holding content (location :: locations) texts ↔
      ∃ text rest, texts = text :: rest ∧ content location = .ok text ∧
        Holding content locations rest := by
  constructor
  · intro h
    cases texts with
    | nil => cases h
    | cons text rest =>
      obtain ⟨hfirst, hrest⟩ := List.cons.inj h
      exact ⟨text, rest, rfl, hfirst, hrest⟩
  · rintro ⟨text, rest, rfl, hfirst, hrest⟩
    exact congrArg₂ List.cons hfirst hrest

/-- What can be retrieved from files is what can be read. -/
theorem holding_files (files : FileSystem) (locations texts : List String) :
    Holding (Medium.files files).content locations texts ↔ Holding files.read locations texts := by
  induction locations generalizing texts with
  | nil => rw [holding_nil, holding_nil]
  | cons location locations ih =>
    have hcontent : (Medium.files files).content location =
        (files.read location).mapError (.ofFileErrorAt location) := rfl
    have hsame : ∀ text, (Medium.files files).content location = .ok text ↔
        files.read location = .ok text := by
      intro text
      rw [hcontent]
      cases files.read location <;> simp [Except.mapError]
    simp only [holding_cons, hsame, ih]

/-- Roots are collected just when all files can be read, and then they are those of the files. -/
theorem collectRoots_eq_ok_iff (files : FileSystem) (names found locations : List String) :
    collectRoots files names locations = .ok found ↔
      ∃ sources, Holding files.read locations sources ∧
        found = sources.foldl (fun names source => (declaredRoots source).foldl addName names) names := by
  induction locations generalizing names with
  | nil => simp [collectRoots, holding_nil, eq_comm]
  | cons location locations ih =>
    rw [collectRoots]
    cases hread : files.read location with
    | error e => simp [holding_cons, hread]
    | ok source =>
      simp only [ih, holding_cons, hread]
      constructor
      · rintro ⟨sources, hsources, hfound⟩
        exact ⟨source :: sources, ⟨source, sources, rfl, rfl, hsources⟩, hfound⟩
      · rintro ⟨_, ⟨first, sources, rfl, hfirst, hsources⟩, hfound⟩
        cases hfirst
        exact ⟨sources, hsources, hfound⟩

/-- Modules that can all be evaluated have texts, whose roots they add to the table. -/
theorem exists_codes_of_boots {content : String → Except RetrievalFailure String}
    {options : WrapOptions} {specs : List ModuleSpec} {layer final : Layer}
    (h : Boots content options specs layer final) :
    ∃ codes, Holding content (specs.map (·.location)) codes ∧ final.scope.roots =
      codes.foldl (fun names code => (declaredRoots code).foldl addName names) layer.scope.roots := by
  induction h with
  | nil layer => exact ⟨[], rfl, rfl⟩
  | @cons spec specs layer mid final first rest ih =>
    obtain ⟨codes, hcodes, hroots⟩ := ih
    cases hcontent : content spec.location with
    | error failure =>
      rw [hcontent] at first
      cases first
    | ok code =>
      have hadded := layer.roots_loadModule options ⟨spec.id, spec.location, spec.hasSourceMap⟩ code
      have hmid : (layer.loadModule options ⟨spec.id, spec.location, spec.hasSourceMap⟩ code).2 =
          mid := by
        rw [hcontent] at first
        rcases hload : layer.loadModule options ⟨spec.id, spec.location, spec.hasSourceMap⟩ code with
          ⟨failure | u, after⟩ <;> simp only [ModuleSpec.attempt, hload] at first <;> cases first
        rfl
      rw [hmid] at hadded
      refine ⟨code :: codes, holding_cons.2 ⟨code, codes, rfl, hcontent, hcodes⟩, ?_⟩
      rw [hroots, hadded, List.foldl_cons]

/-! ## Runs that do well -/

/-- Watching files does not make up for a load that did not do well. -/
theorem status_of_watchOutcome {files : FileSystem} {base : String} {o : Outcome}
    (h : (watchOutcome files base o).status = 0) : o.status = 0 := by
  unfold watchOutcome at h
  split at h
  · cases h
  · split at h
    · cases h
    · exact h

/-- A run does well only with a complete report, also if it was asked to watch files. -/
theorem complete_of_status {s : Surroundings} {a : RunArguments} {w : Meanwhile} {m : Manifest}
    {env : Environment} (h : (loadOutcome s a m env w).status = 0) :
    ∃ report, (loadManifest env m w).1 = .ok report ∧ report.isComplete = true := by
  cases hwatch : a.watch with
  | false => exact (status_loadOutcome hwatch).1 h
  | true =>
    rcases hload : loadManifest env m w with ⟨e | report, after⟩
    · simp [loadOutcome, hload] at h
    · simp only [loadOutcome, hload, hwatch, if_true] at h
      have hstatus := status_of_watchOutcome h
      exact ⟨report, rfl, by simpa using hstatus⟩

/-- A run that does well has retrieved a text for each module of the manifest, from the base that was
chosen, and ends with the roots of these texts in its table. -/
theorem exists_codes_of_run {s : Surroundings} {a : RunArguments} {w : Meanwhile} {m : Manifest}
    {env : Environment} (hread : Manifest.fromFile s.files a.manifest = .ok m)
    (hstart : runEnvironment s a m w.place = .ok env) (hretrieves : env.profile.behavior = .retrieve)
    (hdone : (run s a w).status = 0) :
    ∃ codes, Holding (mediumAt s.files w.place env.config.base).content
        ((m.specs env.config.base).map (·.location)) codes ∧
      (loadManifest env m w).2.layer.scope.roots = rootsIn codes := by
  have hids := Manifest.nodup_ids_of_fromFile hread
  have hprepared := prepared_of_runEnvironment hstart hids
  have hend := hprepared.endsInOrder hids hretrieves w
  rw [run_eq_loadOutcome hread hstart] at hdone
  have hboots := boots_of_evaluateInOrder (hend.complete.1 (complete_of_status hdone))
  rw [← hend.layer] at hboots
  obtain ⟨codes, hcodes, hroots⟩ := exists_codes_of_boots hboots
  have hnone : env.layer.scope.roots = [] := by
    rw [layer_of_runEnvironment hstart]
    rfl
  rw [hnone, foldl_declaredRoots] at hroots
  exact ⟨codes, hcodes, hroots⟩

/-! ## Listing what a run registers -/

/-- The roots under a base that is a directory are listed just when all files of the modules can be
read. -/
theorem roots_eq_success_iff {s : Surroundings} {path : String} {m : Manifest}
    (hread : Manifest.fromFile s.files path = .ok m) (hdirectory : isRemote (m.base?.getD "") = false)
    (found : List String) :
    roots s path = .success found ↔ ∃ sources,
      Holding s.files.read ((m.specs (m.base?.getD "")).map (·.location)) sources ∧
        found = rootsIn sources := by
  have hiff := collectRoots_eq_ok_iff s.files [] found
    ((m.specs (m.base?.getD "")).map (·.location))
  simp only [foldl_declaredRoots] at hiff
  rw [← hiff, roots]
  simp only [hread, hdirectory, Bool.false_eq_true, if_false]
  split <;> rename_i hcollected <;> simp [hcollected, Outcome.failure, Outcome.success]

/-- A run that does well, on a host that retrieves modules, has in its table the roots of the texts it
has retrieved from the base that was chosen.  The listing knows the base of the manifest only: it refuses
a remote one, and from a directory it lists the table of the run just when all modules have files there
and these have the roots of the texts retrieved.  So it does where the run retrieves from the same files,
in particular where the base chosen is that of the manifest. -/
theorem roots_of_run (s : Surroundings) (a : RunArguments) (w : Meanwhile) (m : Manifest)
    (env : Environment) (hread : Manifest.fromFile s.files a.manifest = .ok m)
    (hstart : runEnvironment s a m w.place = .ok env) (hretrieves : env.profile.behavior = .retrieve)
    (hdone : (run s a w).status = 0) :
    let own := m.base?.getD ""
    let chosen := env.config.base
    let table := (loadManifest env m w).2.layer.scope.roots
    let locations := fun base => (m.specs base).map (·.location)
    (∃ codes, Holding (mediumAt s.files w.place chosen).content (locations chosen) codes ∧
      table = rootsIn codes) ∧
    (isRemote own = true →
      roots s a.manifest = .failure [] ("roots needs a directory base, not " ++ own) []) ∧
    (isRemote own = false →
      (roots s a.manifest = .success table ↔
        ∃ sources, Holding s.files.read (locations own) sources ∧ table = rootsIn sources) ∧
      (isRemote chosen = false → locations chosen = locations own →
        roots s a.manifest = .success table)) := by
  intro own chosen table locations
  obtain ⟨codes, hcodes, htable⟩ := exists_codes_of_run hread hstart hretrieves hdone
  refine ⟨⟨codes, hcodes, htable⟩, fun hremote => ?_, fun hdirectory =>
    ⟨roots_eq_success_iff hread hdirectory table, fun hchosen hsame => ?_⟩⟩
  · rw [roots]
    simp only [hread]
    exact if_pos hremote
  · refine (roots_eq_success_iff hread hdirectory table).2 ⟨codes, ?_, htable⟩
    have hmedium : mediumAt s.files w.place chosen = .files s.files := by
      rw [mediumAt, hchosen]
      rfl
    rw [hmedium, holding_files] at hcodes
    exact (congrArg (Holding s.files.read · codes) hsame).mp hcodes

/-- A run that need not watch files does well when its load ends with a complete report. -/
theorem status_run_of_complete {s : Surroundings} {a : RunArguments} {w : Meanwhile} {m : Manifest}
    {env : Environment} (hread : Manifest.fromFile s.files a.manifest = .ok m)
    (hstart : runEnvironment s a m w.place = .ok env) (hwatch : a.watch = false)
    (h : (loadManifest env m w).1.toOption.map (·.isComplete) = some true) :
    (run s a w).status = 0 := by
  rw [run_eq_loadOutcome hread hstart, status_loadOutcome hwatch]
  cases hanswer : (loadManifest env m w).1 with
  | error e => simp [hanswer, Except.toOption] at h
  | ok report => exact ⟨report, rfl, by simpa [hanswer, Except.toOption] using h⟩

/-- Where the base is chosen by a variable of the environment, the run registers the root of the module
that it finds there, and the listing reads the file that the manifest would lead to.  Without the
variable both are about that file. -/
theorem roots_of_run_elsewhere :
    let tree := FileTree.mk
      [(["m.json"], .file (some "\x7b\"modules\": [\x7b\"id\": \"a.js\"\x7d]\x7d")),
        (["a.js"], .file (some "declare-root('one.x')")),
        (["out", "a.js"], .file (some "declare-root('two.x')"))]
    let a := RunArguments.mk "m.json" none none false false false
    let own := Surroundings.mk (tree.system []) [] none
    let chosen := Surroundings.mk (tree.system []) [("MODBOOT_BASE", "out")] none
    ∃ m, Manifest.fromFile (tree.system []) a.manifest = .ok m ∧ isRemote (m.base?.getD "") = false ∧
      ((run own a).status = 0 ∧ roots own a.manifest = .success ["one"]) ∧
      ∃ env, runEnvironment chosen a m = .ok env ∧ env.profile.behavior = .retrieve ∧
        env.config.base = "out" ∧ (run chosen a).status = 0 ∧
        (loadManifest env m).2.layer.scope.roots = ["two"] ∧
        roots chosen a.manifest ≠ .success (loadManifest env m).2.layer.scope.roots := by
  intro tree a own chosen
  obtain ⟨m, hread, hbase, hown, hchosen, hnames⟩ : ∃ m,
      Manifest.fromFile (tree.system []) a.manifest = .ok m ∧ m.base?.getD "" = "" ∧
      (runEnvironment own a m).toOption.map (fun env => (env.profile.behavior, env.config.base,
        (loadManifest env m).1.toOption.map (·.isComplete),
        (loadManifest env m).2.layer.scope.roots)) = some (.retrieve, "", some true, ["one"]) ∧
      (runEnvironment chosen a m).toOption.map (fun env => (env.profile.behavior, env.config.base,
        (loadManifest env m).1.toOption.map (·.isComplete),
        (loadManifest env m).2.layer.scope.roots)) = some (.retrieve, "out", some true, ["two"]) ∧
      ((m.specs "").map (chosen.files.read ·.location) = [.ok "declare-root('one.x')"]) :=
    ⟨⟨some "", [⟨"a.js", none, false⟩]⟩, by decide +kernel +revert⟩
  have hdirectory : isRemote (m.base?.getD "") = false := by
    rw [hbase]
    rfl
  refine ⟨m, hread, hdirectory, ?_, ?_⟩
  · obtain ⟨env, hstart, henv⟩ := exists_runEnvironment hown
    simp only [Prod.mk.injEq] at henv
    obtain ⟨hretrieves, hthere, hcomplete, htable⟩ := henv
    have hdone : (run own a).status = 0 :=
      status_run_of_complete (w := {}) hread hstart rfl hcomplete
    obtain ⟨-, -, hlisted⟩ := roots_of_run own a {} m env hread hstart hretrieves hdone
    have hsame := (hlisted hdirectory).2 (by rw [hthere]; rfl) (by rw [hthere, hbase])
    rw [htable] at hsame
    exact ⟨hdone, hsame⟩
  · obtain ⟨env, hstart, henv⟩ := exists_runEnvironment hchosen
    simp only [Prod.mk.injEq] at henv
    obtain ⟨hretrieves, hthere, hcomplete, htable⟩ := henv
    have hdone : (run chosen a).status = 0 :=
      status_run_of_complete (w := {}) hread hstart rfl hcomplete
    refine ⟨env, hstart, hretrieves, hthere, hdone, htable, fun hlists => ?_⟩
    obtain ⟨-, -, hlisted⟩ := roots_of_run chosen a {} m env hread hstart hretrieves hdone
    obtain ⟨sources, hsources, hroots⟩ := (hlisted hdirectory).1.1 hlists
    rw [hbase, Holding, List.map_map] at hsources
    obtain rfl : sources = ["declare-root('one.x')"] :=
      List.map_injective_iff.2 (fun _ _ => Except.ok.inj) (hsources.symm.trans hnames)
    rw [htable] at hroots
    exact absurd hroots (by decide +kernel)

end ModuleLoader.Command
