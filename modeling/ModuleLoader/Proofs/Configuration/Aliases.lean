import Mathlib.Data.List.Permutation
import ModuleLoader.Configuration.Layers
import ModuleLoader.Files.Tree
import ModuleLoader.Proofs.Text.Segments

/-!
# Aliases from a file

An array of aliases reaches a configuration as one text, cut at every comma.  Names come out as they
went in; other texts may come out as names and are then accepted in place of what was written.  Main
statements: `AliasArray.load_eq`, what layers load to that choose their aliases by an array and have
nothing else to refuse, and `AliasArray.load_keeps_iff`, when no alias is accepted that was not written.
-/

set_option autoImplicit false

namespace ModuleLoader

open ModuleLoader.Text

/-! ## Lists as texts -/

/-- The items of joined texts are the items of each of them. -/
theorem listItems_intercalate (texts : List String) :
    listItems (",".intercalate texts) = texts.flatMap listItems := by
  cases texts with
  | nil => rfl
  | cons text texts =>
    have hcut := splitOnChar_intercalate ',' (List.cons_ne_nil text texts)
    unfold listItems
    rw [show "," = String.singleton ',' from rfl, hcut, List.map_flatMap, List.filter_flatMap]

/-- A name that can be bound is the one item of its text. -/
theorem listItems_of_isBindable {name : String} (h : Configuration.isBindable name = true) :
    listItems name = [name] := by
  rw [Configuration.isBindable, Bool.and_eq_true] at h
  have hcomma : ',' ∉ name.toList := fun hmem => by cases isIdContinue_of_mem h.1 hmem
  have hsome : name ≠ "" := by
    rintro rfl
    cases h.1
  rw [listItems, splitOnChar, splitChars_of_not_mem hcomma, List.map_singleton, List.map_singleton,
    String.ofList_toList, trim_of_not_isBlank (not_isBlank_of_isIdentifier h.1)]
  simpa using hsome

/-- Names that can be bound are not cut into pieces. -/
theorem flatMap_listItems_of_isBindable {names : List String}
    (h : ∀ name ∈ names, Configuration.isBindable name = true) : names.flatMap listItems = names := by
  induction names with
  | nil => rfl
  | cons name names ih =>
    obtain ⟨hname, hnames⟩ := List.forall_mem_cons.1 h
    rw [List.flatMap_cons, listItems_of_isBindable hname, ih hnames, List.singleton_append]

/-! ## Settings of other keys -/

/-- The key of the settings that choose the aliases, in its usual spelling. -/
def aliasKey : String := "compat_aliases"

/-- Whether a setting chooses the aliases. -/
def choosesAliases (s : String × String) : Bool := replaceChar '-' '_' s.1 == aliasKey

/-- A configuration with other aliases. -/
def Configuration.withAliases (c : Configuration) (aliases : List String) : Configuration :=
  { c with aliases }

/-- A choice of anything else neither looks at the aliases nor changes them. -/
theorem Configuration.choose?_withAliases (c : Configuration) (aliases : List String)
    {key : String} (hkey : key ≠ aliasKey) (value : String) :
    (c.withAliases aliases).choose? key value =
      (c.choose? key value).map (Except.map (·.withAliases aliases)) := by
  unfold choose?
  split
  · cases readHost value <;> rfl
  · rfl
  · cases readBoolean "force_async" value <;> rfl
  · cases readBoolean "debug" value <;> rfl
  · cases readNumber "fetch_timeout_secs" value <;> rfl
  · cases readNumber "max_concurrency" value <;> rfl
  · exact absurd rfl hkey
  · rfl
  · rfl

/-- A configuration with other aliases is refused for these alone, where it would not be refused
without aliases. -/
theorem Configuration.validate_withAliases {c : Configuration}
    (hvalid : (c.withAliases []).validate = .ok ()) (aliases : List String) :
    (c.withAliases aliases).validate =
      match aliases.find? fun name => !isBindable name with
      | none => .ok ()
      | some name => .error (.config (.badAlias name)) := by
  have hfault : (c.withAliases aliases).fault? =
      (aliases.find? fun name => !isBindable name).map .badAlias := by
    -- The choices that are looked at before the aliases are the same.
    obtain ⟨htimeout, hsome, hmost, hsuffix, -⟩ := validate_eq_ok.1 hvalid
    refine (if_neg htimeout).trans ?_
    refine (if_neg hsome).trans ?_
    refine (if_neg (Nat.not_lt.2 hmost)).trans ?_
    exact if_neg hsuffix
  unfold validate
  rw [hfault]
  cases aliases.find? fun name => !isBindable name <;> rfl

namespace Draft

/-- A draft whose configuration has other aliases. -/
def withAliases (d : Draft) (aliases : List String) : Draft :=
  { d with config := d.config.withAliases aliases }

/-- A setting that does not choose the aliases does the same whatever they are. -/
theorem set_withAliases (d : Draft) (aliases : List String) {key value : String}
    (hkey : choosesAliases (key, value) = false) :
    (d.withAliases aliases).set key value =
      ((d.set key value).1, (d.set key value).2.withAliases aliases) := by
  have hother : replaceChar '-' '_' key ≠ aliasKey := by simpa [choosesAliases] using hkey
  have hchoose := d.config.choose?_withAliases aliases hother value
  unfold set
  simp only [withAliases, hchoose]
  cases d.config.choose? (replaceChar '-' '_' key) value with
  | none => rfl
  | some result => cases result <;> rfl

/-- So do several settings. -/
theorem setAll_withAliases (d : Draft) (aliases : List String) {settings : List (String × String)}
    (hother : ∀ s ∈ settings, choosesAliases s = false) :
    (d.withAliases aliases).setAll settings =
      ((d.setAll settings).1, (d.setAll settings).2.withAliases aliases) := by
  induction settings generalizing d with
  | nil => rfl
  | cons s settings ih =>
    obtain ⟨hs, hsettings⟩ := List.forall_mem_cons.1 hother
    unfold setAll
    rw [set_withAliases d aliases hs]
    rcases d.set s.1 s.2 with ⟨e | _, d'⟩
    · rfl
    · exact ih d' hsettings

/-- A setting of the aliases is always accepted. -/
theorem set_aliases (d : Draft) {key value : String} (hkey : choosesAliases (key, value) = true) :
    d.set key value = (.ok (), d.withAliases (listItems value)) := by
  have halias : replaceChar '-' '_' key = "compat_aliases" := eq_of_beq hkey
  unfold set
  rw [halias]
  rfl

/-- Taking settings is taking the first of them and then, if none was refused, the others. -/
theorem setAll_append (d : Draft) (front rest : List (String × String)) :
    d.setAll (front ++ rest) =
      match d.setAll front with
      | (.error e, d') => (.error e, d')
      | (.ok (), d') => d'.setAll rest := by
  induction front generalizing d with
  | nil => rfl
  | cons s front ih =>
    simp only [List.cons_append, setAll]
    rcases d.set s.1 s.2 with ⟨e | _, d'⟩
    · rfl
    · exact ih d'

/-- The last setting of the aliases decides them, and leaves the other choices as they are. -/
theorem setAll_aliases {d d' : Draft} {front rest : List (String × String)} {key value : String}
    (hkey : choosesAliases (key, value) = true) (hlast : ∀ s ∈ rest, choosesAliases s = false)
    (haccepted : d.setAll (front ++ rest) = (.ok (), d')) :
    d.setAll (front ++ (key, value) :: rest) = (.ok (), d'.withAliases (listItems value)) := by
  rw [setAll_append] at haccepted ⊢
  rcases hfront : d.setAll front with ⟨e | _, mid⟩
  · rw [hfront] at haccepted
    cases haccepted
  · rw [hfront] at haccepted
    simp only at haccepted ⊢
    rw [setAll, set_aliases mid hkey]
    simp only
    rw [setAll_withAliases mid _ hlast, haccepted]

end Draft

/-! ## Layers -/

/-- The settings in a file; a file that does not exist has none. -/
def ownSettings (files : FileSystem) (path : String) : Except LoaderError (List (String × String)) :=
  if files.exists? path then
    match files.read path with
    | .error e => .error (.file e)
    | .ok text =>
      match Toml.parse? text with
      | none => .error .toml
      | some t => .ok (Toml.settings t)
  else .ok []

/-- The settings in some files, in turn. -/
def fileSettings (files : FileSystem) : List String → Except LoaderError (List (String × String))
  | [] => .ok []
  | path :: paths =>
    match ownSettings files path with
    | .error e => .error e
    | .ok own => (fileSettings files paths).map (own ++ ·)

/-- The settings of several files are those of the first and then those of the others. -/
theorem fileSettings_cons {files : FileSystem} {path : String} {paths : List String}
    {settings : List (String × String)} : fileSettings files (path :: paths) = .ok settings ↔
      ∃ own later, ownSettings files path = .ok own ∧ fileSettings files paths = .ok later ∧
        settings = own ++ later := by
  rw [fileSettings]
  cases ownSettings files path with
  | error e => simp
  | ok own =>
    cases fileSettings files paths with
    | error e => simp [Except.map]
    | ok later => simp [Except.map, eq_comm]

/-- The settings of files in two groups are those of the one and then those of the other. -/
theorem fileSettings_append {files : FileSystem} {before after : List String}
    {earlier later : List (String × String)} (hbefore : fileSettings files before = .ok earlier)
    (hafter : fileSettings files after = .ok later) :
    fileSettings files (before ++ after) = .ok (earlier ++ later) := by
  induction before generalizing earlier with
  | nil =>
    cases hbefore
    exact hafter
  | cons path before ih =>
    obtain ⟨own, more, hown, hmore, rfl⟩ := fileSettings_cons.1 hbefore
    exact fileSettings_cons.2 ⟨own, more ++ later, hown, ih hmore, List.append_assoc own more later⟩

/-- A file that can be read and parsed has the settings of its table. -/
theorem ownSettings_of_read {files : FileSystem} {path text : String} {t : Table TomlValue}
    (hread : files.read path = .ok text) (hparse : Toml.parse? text = some t) :
    ownSettings files path = .ok (Toml.settings t) := by
  have hexists : files.exists? path = true := by
    unfold FileSystem.read at hread
    unfold FileSystem.exists?
    cases hnode : files.node path with
    | error e =>
      rw [hnode] at hread
      cases hread
    | ok node => rfl
  rw [ownSettings, if_pos hexists, hread]
  simp only [hparse]

/-- A file that can be read has the effect of its settings. -/
theorem Draft.addFile_eq_setAll {files : FileSystem} {path : String}
    {settings : List (String × String)} (h : ownSettings files path = .ok settings) (d : Draft) :
    d.addFile files path = d.setAll settings := by
  by_cases hexists : files.exists? path = true
  · rw [ownSettings, if_pos hexists] at h
    rw [addFile, if_pos hexists]
    cases hread : files.read path with
    | error e =>
      rw [hread] at h
      cases h
    | ok text =>
      simp only [hread] at h
      cases hparse : Toml.parse? text with
      | none =>
        rw [hparse] at h
        cases h
      | some t =>
        rw [hparse] at h
        cases h
        simp only [addText, hparse]
  · rw [ownSettings, if_neg hexists] at h
    rw [addFile, if_neg hexists]
    cases h
    rfl

/-- Taking files that can be read is taking their settings, one after the other. -/
theorem Draft.addFiles_eq_setAll {files : FileSystem} {paths : List String}
    {settings : List (String × String)} (h : fileSettings files paths = .ok settings) (d : Draft) :
    d.addFiles files paths = d.setAll settings := by
  induction paths generalizing d settings with
  | nil =>
    cases h
    rfl
  | cons path paths ih =>
    obtain ⟨own, later, hown, hlater, rfl⟩ := fileSettings_cons.1 h
    rw [addFiles, addFile_eq_setAll hown, setAll_append]
    rcases d.setAll own with ⟨e | _, d'⟩
    · rfl
    · exact ih hlater d'

/-- Layers that can be read load to what all their settings choose. -/
theorem Configuration.load_of_settings {files : FileSystem} {paths : List String}
    {bindings settings : List (String × String)} {d : Draft}
    (hfiles : fileSettings files paths = .ok settings)
    (haccepted : Draft.initial.setAll (settings ++ bindings.filterMap variableSetting?) =
      (.ok (), d)) :
    load files paths bindings = (d.config.validate.map fun _ => d.config, d.events) := by
  rw [Draft.setAll_append, ← Draft.addFiles_eq_setAll hfiles] at haccepted
  unfold load
  rcases hread : Draft.initial.addFiles files paths with ⟨e | _, mid⟩
  · rw [hread] at haccepted
    cases haccepted
  · rw [hread] at haccepted
    simp only at haccepted ⊢
    rw [haccepted]

/-- Layers of which a file chooses the aliases by an array of texts, and no later setting chooses them
again.  All else is in order: the files can be read, the other settings are accepted, and what they
choose is of use to a loader that has no aliases. -/
structure AliasArray (files : FileSystem) (bindings : List (String × String)) where
  /-- The files before and after the one with the array. -/
  before : List String
  path : String
  after : List String
  /-- The text of the file, and the entries of its table with the array among them. -/
  text : String
  read_eq : files.read path = .ok text
  front : List (String × TomlValue)
  key : String
  items : List String
  rest : List (String × TomlValue)
  parse_eq : Toml.parse? text = some ⟨front ++ (key, .array (items.map .string)) :: rest⟩
  key_eq : replaceChar '-' '_' key = aliasKey
  /-- The settings of the other files. -/
  earlier : List (String × String)
  later : List (String × String)
  before_eq : fileSettings files before = .ok earlier
  after_eq : fileSettings files after = .ok later
  last : ∀ s ∈ Toml.settings ⟨rest⟩ ++ later ++ bindings.filterMap variableSetting?,
    choosesAliases s = false
  /-- What all other settings choose. -/
  others : Draft
  accepted : Draft.initial.setAll (earlier ++ Toml.settings ⟨front⟩ ++
    (Toml.settings ⟨rest⟩ ++ later ++ bindings.filterMap variableSetting?)) = (.ok (), others)
  valid : (others.config.withAliases []).validate = .ok ()

namespace AliasArray

variable {files : FileSystem} {bindings : List (String × String)}

/-- All files, in the order in which they are read. -/
def paths (a : AliasArray files bindings) : List String := a.before ++ a.path :: a.after

/-- The texts that the array comes out as. -/
def pieces (a : AliasArray files bindings) : List String := a.items.flatMap listItems

/-- All settings, in order, are those of the other layers with one of the aliases among them. -/
theorem setAll_eq (a : AliasArray files bindings) : ∃ settings,
    fileSettings files a.paths = .ok settings ∧
      Draft.initial.setAll (settings ++ bindings.filterMap variableSetting?) =
        (.ok (), a.others.withAliases a.pieces) := by
  have htable : Toml.settings ⟨a.front ++ (a.key, .array (a.items.map .string)) :: a.rest⟩ =
      Toml.settings ⟨a.front⟩ ++ (a.key, ",".intercalate a.items) :: Toml.settings ⟨a.rest⟩ := by
    simp [Toml.settings, Toml.settingText, Toml.settingItem, Function.comp_def]
  have hkey : choosesAliases (a.key, ",".intercalate a.items) = true := beq_iff_eq.2 a.key_eq
  have haccepted := Draft.setAll_aliases hkey a.last a.accepted
  rw [listItems_intercalate] at haccepted
  refine ⟨_, fileSettings_append a.before_eq
    (fileSettings_cons.2 ⟨_, _, ownSettings_of_read a.read_eq a.parse_eq, a.after_eq, rfl⟩), ?_⟩
  rw [htable, pieces]
  simpa using haccepted

/-- The layers load to what all other settings choose, with the pieces of the array as aliases, unless
one of these is no name that can be bound. -/
theorem load_eq (a : AliasArray files bindings) :
    Configuration.load files a.paths bindings =
      (match a.pieces.find? fun name => !Configuration.isBindable name with
        | none => .ok (a.others.config.withAliases a.pieces)
        | some name => .error (.config (.badAlias name)), a.others.events) := by
  obtain ⟨settings, hfiles, haccepted⟩ := a.setAll_eq
  rw [Configuration.load_of_settings hfiles haccepted]
  have hvalidate := Configuration.validate_withAliases a.valid a.pieces
  show ((a.others.config.withAliases a.pieces).validate.map fun _ => _, a.others.events) = _
  rw [hvalidate]
  cases a.pieces.find? fun name => !Configuration.isBindable name <;> rfl

/-- The layers load as the pieces of the array decide.  The law that aliases are loaded as they are
written says that layers that are refused are refused for a setting, that those that are accepted have
the aliases of the array, and that they are accepted just when each of these is a name that can be
bound.  It holds just when the array is not accepted for its pieces alone, being names although some of
its texts are not. -/
theorem load_keeps_iff (a : AliasArray files bindings) :
    let result := (Configuration.load files a.paths bindings).1
    (result = match a.pieces.find? fun name => !Configuration.isBindable name with
      | none => .ok (a.others.config.withAliases a.pieces)
      | some name => .error (.config (.badAlias name))) ∧
    ((((∃ c, result = .ok c ∧ c.aliases = a.items) ∨ ∃ fault, result = .error (.config fault)) ∧
      ((∃ c, result = .ok c) ↔ ∀ name ∈ a.items, Configuration.isBindable name = true)) ↔
    ((∀ name ∈ a.pieces, Configuration.isBindable name = true) →
      ∀ name ∈ a.items, Configuration.isBindable name = true)) := by
  intro result
  have hkept : (∀ name ∈ a.items, Configuration.isBindable name = true) → a.pieces = a.items :=
    flatMap_listItems_of_isBindable
  have hload : result = _ := congrArg Prod.fst a.load_eq
  refine ⟨hload, ?_⟩
  cases hfind : a.pieces.find? fun name => !Configuration.isBindable name with
  | none =>
    have hpieces : ∀ name ∈ a.pieces, Configuration.isBindable name = true := by
      simpa using List.find?_eq_none.1 hfind
    rw [hfind] at hload
    constructor
    · intro hlaw _
      exact hlaw.2.1 ⟨_, hload⟩
    · intro hnames
      have hitems := hnames hpieces
      exact ⟨.inl ⟨_, hload, hkept hitems⟩, iff_of_true ⟨_, hload⟩ hitems⟩
  | some name =>
    have hname : Configuration.isBindable name = false := by
      simpa using List.find?_some hfind
    have hpieces : ¬∀ name ∈ a.pieces, Configuration.isBindable name = true := by
      intro hall
      cases (hall name (List.mem_of_find?_eq_some hfind)).symm.trans hname
    rw [hfind] at hload
    refine iff_of_true ⟨.inr ⟨_, hload⟩, iff_of_false ?_ ?_⟩ fun hall => absurd hall hpieces
    · rintro ⟨c, hc⟩
      cases hload.symm.trans hc
    · intro hitems
      exact hpieces (hkept hitems ▸ hitems)

/-- A project with a file whose array has two texts, neither of them a name. -/
def project : FileSystem :=
  ⟨fun path => if path = "modboot.toml" then
    .ok (.file (some "compat_aliases = [\"a,b\", \" c\"]")) else .error .missing⟩

/-- The text of the project's settings is the table of one array of two texts. -/
theorem parse?_project : Toml.parse? "compat_aliases = [\"a,b\", \" c\"]" =
    some ⟨[("compat_aliases", .array [.string "a,b", .string " c"])]⟩ := by
  cbv

/-- The array of the project, read after a file of the user that does not exist. -/
def ofProject : AliasArray project [("HOME", "/home")] where
  before := ["/home/modboot.toml"]
  path := "modboot.toml"
  after := []
  text := "compat_aliases = [\"a,b\", \" c\"]"
  read_eq := rfl
  front := []
  key := "compat_aliases"
  items := ["a,b", " c"]
  rest := []
  parse_eq := parse?_project
  key_eq := by decide +kernel
  earlier := []
  later := []
  before_eq := rfl
  after_eq := rfl
  last := by decide +kernel
  others := .initial
  accepted := by
    have hbindings : [("HOME", "/home")].filterMap variableSetting? = [] := by decide +kernel
    rw [hbindings]
    rfl
  valid := Configuration.validate_eq_ok.2
    ⟨by decide +kernel, by decide +kernel, by decide +kernel, by decide +kernel, by decide +kernel⟩

/-- The two texts are accepted as three names. -/
theorem load_keeps_iff_pieces :
    (Configuration.load project ["/home/modboot.toml", "modboot.toml"] [("HOME", "/home")]).1 =
      .ok (Configuration.default.withAliases ["a", "b", "c"]) ∧
    ¬((∀ name ∈ ["a", "b", "c"], Configuration.isBindable name = true) →
      ∀ name ∈ ["a,b", " c"], Configuration.isBindable name = true) := by
  have hpieces : ofProject.pieces = ["a", "b", "c"] := by decide +kernel
  have hnames : (["a", "b", "c"].find? fun name => !Configuration.isBindable name) = none := by
    decide +kernel
  have hload := ofProject.load_keeps_iff.1
  rw [hpieces, hnames] at hload
  exact ⟨hload, by decide +kernel⟩

end AliasArray

end ModuleLoader
