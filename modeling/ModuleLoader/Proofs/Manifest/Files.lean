import Mathlib.Data.List.Induction
import ModuleLoader.Manifest.Index
import ModuleLoader.Proofs.Manifest.Ids

/-!
# The modules of a file

The loader and the index put a module at the same file.  A manifest gives its modules different ids but
not different files, and the index keeps one module for each file.  Main statements:
`ModuleIndex.find?_ofManifest`, a file leads to the last module that is read from it, and
`ModuleIndex.find?_location_iff`, when the place a module is retrieved from leads back to it.
-/

set_option autoImplicit false

namespace ModuleLoader

/-- Where a path that is not remote is retrieved from under a directory. -/
theorem resolveLocation_directory {base path : String} (hbase : isRemote base = false)
    (hpath : isRemote path = false) : resolveLocation base path = Path.join base path := by
  unfold resolveLocation Path.join
  rw [hpath, hbase]
  by_cases hempty : base.isEmpty = true <;> simp [hempty]

/-- The file of a module under a directory, by the components of its path. -/
def ManifestModule.file (m : ManifestModule) (directory : String) : List String :=
  Path.components (Path.join directory m.path)

/-- A module as the index keeps it. -/
def ManifestModule.indexed (m : ManifestModule) : IndexedModule := ⟨m.id, m.hasSourceMap⟩

namespace ModuleIndex

/-- What is put under a file is found there, and nothing else is found elsewhere. -/
theorem find?_insert (index : ModuleIndex) (file : List String) (m : IndexedModule) (path : String) :
    (index.insert file m).find? path =
      if file = Path.components path then some m else index.find? path := by
  have hkept : (index.entries.filter (·.1 != file)).find? (·.1 == Path.components path) =
      if file = Path.components path then none
      else index.entries.find? (·.1 == Path.components path) := by
    rw [List.find?_filter]
    split
    · rename_i hfile
      simp [List.find?_eq_none, hfile]
    · rename_i hfile
      congr 1
      funext e
      by_cases he : e.1 = Path.components path
      · simp [he, Ne.symm hfile]
      · simp [he]
  unfold insert find?
  rw [List.find?_append, hkept]
  by_cases hfile : file = Path.components path <;> simp [hfile]

/-- A file leads to the last module that is read from it. -/
theorem find?_ofManifest (directory : String) (manifest : Manifest) (path : String) :
    (ofManifest directory manifest).find? path =
      (manifest.modules.reverse.find? fun m => m.file directory == Path.components path).map
        ManifestModule.indexed := by
  unfold ofManifest
  induction manifest.modules using List.reverseRecOn with
  | nil => rfl
  | append_singleton modules m ih =>
    rw [List.foldl_append, List.foldl_cons, List.foldl_nil, find?_insert, List.reverse_concat,
      List.find?_cons, ih]
    show (if m.file directory = Path.components path then some m.indexed else _) = _
    by_cases hfile : m.file directory = Path.components path
    · simp [hfile]
    · rw [if_neg hfile, beq_eq_false_iff_ne.2 hfile]

/-- The last module of a list with the file of the first one is found first from behind. -/
theorem exists_last_of_file (directory : String) (m : ManifestModule) (after : List ManifestModule) :
    ∃ front last rest, m :: after = front ++ last :: rest ∧
      last.file directory = m.file directory ∧
      (∀ other ∈ rest, other.file directory ≠ m.file directory) ∧
      (m :: after).reverse.find? (fun e => e.file directory == m.file directory) = some last := by
  have hsome : ((m :: after).reverse.find? fun e => e.file directory == m.file directory).isSome := by
    rw [List.find?_isSome]
    exact ⟨m, List.mem_reverse.2 List.mem_cons_self, beq_self_eq_true _⟩
  obtain ⟨last, hlast⟩ := Option.isSome_iff_exists.1 hsome
  obtain ⟨hfile, behind, before, hsplit, hbehind⟩ := List.find?_eq_some_iff_append.1 hlast
  refine ⟨before.reverse, last, behind.reverse, ?_, eq_of_beq hfile, fun other hother => ?_, hlast⟩
  · have hreversed := congrArg List.reverse hsplit
    simpa using hreversed
  · simpa using hbehind other (List.mem_reverse.1 hother)

/-- In a manifest that is accepted, the place that a module is retrieved from under a directory leads
to the last module that has the same file there.  That is the module itself just when no module behind
it is read from its file, and another module, with another id, otherwise. -/
theorem find?_location_iff {text base : String} {manifest : Manifest}
    (hparse : Manifest.parse text = .ok manifest) (hbase : isRemote base = false)
    {before after : List ManifestModule} {m : ManifestModule}
    (hmodules : manifest.modules = before ++ m :: after) (hpath : isRemote m.path = false) :
    (∃ front last rest, m :: after = front ++ last :: rest ∧ last.file base = m.file base ∧
      (∀ other ∈ rest, other.file base ≠ m.file base) ∧
      (ofManifest base manifest).find? (resolveLocation base m.path) = some last.indexed) ∧
    ((ofManifest base manifest).find? (resolveLocation base m.path) = some m.indexed ↔
      ∀ other ∈ after, other.file base ≠ m.file base) := by
  have hnodup : (manifest.modules.map (·.id)).Nodup :=
    ((Manifest.faultAmong_eq_none_iff [] manifest.modules).1 (Manifest.fault?_of_parse hparse)).2
  obtain ⟨front, last, rest, hsplit, hlast, hrest, hfind⟩ :
      ∃ front last rest, m :: after = front ++ last :: rest ∧ last.file base = m.file base ∧
        (∀ other ∈ rest, other.file base ≠ m.file base) ∧
        (ofManifest base manifest).find? (resolveLocation base m.path) = some last.indexed := by
    obtain ⟨front, last, rest, hsplit, hlast, hrest, hfind⟩ := exists_last_of_file base m after
    refine ⟨front, last, rest, hsplit, hlast, hrest, ?_⟩
    rw [find?_ofManifest, resolveLocation_directory hbase hpath, hmodules, List.reverse_append,
      List.find?_append]
    show Option.map _ (((m :: after).reverse.find? fun e => e.file base == m.file base).or _) = _
    rw [hfind]
    rfl
  refine ⟨⟨front, last, rest, hsplit, hlast, hrest, hfind⟩, ?_⟩
  rw [hfind]
  cases front with
  | nil =>
    obtain ⟨rfl, rfl⟩ := List.cons.inj hsplit
    exact iff_of_true rfl hrest
  | cons first front =>
    obtain ⟨rfl, hafter⟩ := List.cons.inj hsplit
    have hmem : last ∈ after := by rw [hafter]; exact List.mem_append_right _ List.mem_cons_self
    refine iff_of_false (fun hsame => ?_) fun hnone => hnone last hmem hlast
    -- Different modules have different ids.
    have hid : last.id = m.id := congrArg IndexedModule.id (Option.some.inj hsame)
    rw [hmodules, List.map_append, List.map_cons] at hnodup
    have hnew := (List.nodup_cons.1 (List.nodup_append.1 hnodup).2.1).1
    exact hnew (hid ▸ List.mem_map_of_mem hmem)

/-- Two modules of different ids are read from one file: the place of the first leads to the other. -/
theorem find?_location_iff_shared :
    let text := "\x7b\"modules\": [" ++
      "\x7b\"id\": \"a\", \"path\": \"lib//x.js\", \"sourceMap\": true\x7d, " ++
      "\x7b\"id\": \"b.js\"\x7d, \x7b\"id\": \"lib/./x.js\"\x7d]\x7d"
    let m : ManifestModule := ⟨"a", some "lib//x.js", true⟩
    let after : List ManifestModule := [⟨"b.js", none, false⟩, ⟨"lib/./x.js", none, false⟩]
    let manifest : Manifest := ⟨none, [] ++ m :: after⟩
    Manifest.parse text = .ok manifest ∧ isRemote "/srv/out" = false ∧ isRemote m.path = false ∧
      resolveLocation "/srv/out" m.path = "/srv/out/lib//x.js" ∧
      (ofManifest "/srv/out" manifest).find? "/srv/out/lib//x.js" ≠ some m.indexed ∧
      (ofManifest "/srv/out" manifest).find? "/srv/out/lib//x.js" = some ⟨"lib/./x.js", false⟩ := by
  intro text m after manifest
  obtain ⟨hbase, hpath, hplace, hfound, hother⟩ : isRemote "/srv/out" = false ∧
      isRemote m.path = false ∧ resolveLocation "/srv/out" m.path = "/srv/out/lib//x.js" ∧
      (ofManifest "/srv/out" manifest).find? "/srv/out/lib//x.js" = some ⟨"lib/./x.js", false⟩ ∧
      ∃ other ∈ after, other.file "/srv/out" = m.file "/srv/out" := by
    decide +kernel +revert
  have hparse : Manifest.parse text = .ok manifest := by decide +kernel +revert
  obtain ⟨-, hiff⟩ := find?_location_iff hparse hbase rfl hpath
  rw [hplace] at hiff
  refine ⟨hparse, hbase, hpath, hplace, fun hsame => ?_, hfound⟩
  obtain ⟨other, hmem, hfile⟩ := hother
  exact hiff.1 hsame other hmem hfile

end ModuleIndex

end ModuleLoader
