import ModuleLoader.Command.Help
import ModuleLoader.Configuration.Layers
import ModuleLoader.Environment.Operations
import ModuleLoader.Manifest.Index

/-!
# What a command does

The lines a command prints and the status it ends with, as a function of its arguments, of what is
around it, the files, the variables of the environment and the place of the user's settings, and of
what goes on outside meanwhile.
-/

set_option autoImplicit false

namespace ModuleLoader.Command

/-- What is around a command. -/
structure Surroundings where
  files : FileSystem
  /-- The variables of the environment, with their values. -/
  bindings : List (String × String)
  /-- The user's configuration file. -/
  userSettings : Option String

/-- What goes on outside while a command runs.  Retrievals run beside the command and may arrive in any
order.  What arrives during a call is taken note of at its end or in the next call, which comes to the
same; and while the command waits at the end, it takes note of arrivals one at a time, so that they
might as well all have been there before. -/
structure Meanwhile where
  /-- What remote places answer. -/
  place : Remote := .offline
  /-- The turns of retrievals between the registration of the modules and the end of the phase in which
  they are held back. -/
  loaded : List Nat := []
  /-- The turns of retrievals from then until the command waits for them. -/
  ready : List Nat := []

/-- The file with the settings of a project. -/
def projectSettings : String := "modboot.toml"

/-- What a command printed and how it ended. -/
structure Outcome where
  status : Nat
  output : List String
  errors : List String
deriving DecidableEq, Repr

/-- A command that printed some lines and did well. -/
def Outcome.success (output : List String) : Outcome := ⟨0, output, []⟩

/-! ### Colours -/

/-- A text in a colour, by its number on a terminal. -/
def coloured (colour : Nat) (text : String) : String :=
  "\x1b[" ++ natText colour ++ "m" ++ text ++ "\x1b[39m"

/-- A text in bold. -/
def bold (text : String) : String := "\x1b[1m" ++ text ++ "\x1b[0m"

/-- The colours that are used, by their numbers. -/
def red : Nat := 31
def green : Nat := 32
def yellow : Nat := 33
def cyan : Nat := 36

/-! ### Errors that end a command -/

/-- The causes behind an error, nearest first. -/
def causesOf : LoaderError → List String
  | .retrieval _ _ cause => [cause.message]
  | .evaluation failure => [failure.message]
  | .file error => [error.text]
  | _ => []

/-- A cause on a line of its own, with its number if there are several. -/
def causeLine (several : Bool) (cause : Nat × String) : String :=
  if several then "    " ++ natText cause.1 ++ ": " ++ cause.2 else "    " ++ cause.2

/-- The lines that tell an error and its causes. -/
def errorLines (message : String) (causes : List String) : List String :=
  ("Error: " ++ message) ::
    if causes.isEmpty then []
    else
      "" :: "Caused by:" ::
        ((List.range causes.length).zip causes).map (causeLine (1 < causes.length))

/-- A command that an error ended after it had printed some lines. -/
def Outcome.failure (output : List String) (message : String) (causes : List String) : Outcome :=
  ⟨1, output, errorLines message causes⟩

/-- A command that an error of the loader ended. -/
def Outcome.ofError (output : List String) (e : LoaderError) : Outcome :=
  .failure output e.message (causesOf e)

/-- The outcome of a command whose manifest cannot be read. -/
def Outcome.unreadableManifest (path : String) (e : LoaderError) : Outcome :=
  .failure [] ("Failed to read manifest " ++ path) (e.message :: causesOf e)

/-! ### Running a manifest -/

/-- The configuration that the surroundings make. -/
def surroundingConfiguration (s : Surroundings) : Except LoaderError Configuration :=
  (Configuration.load s.files (s.userSettings.toList ++ [projectSettings]) s.bindings).1

/-- The configuration with the choices of the command line; where no base was chosen it is that of
the manifest. -/
def chosenConfiguration (c : Configuration) (a : RunArguments) (m : Manifest) : Configuration where
  host := a.host?.getD c.host
  base := a.base?.getD (if c.base = "" then m.base?.getD "" else c.base)
  forceAsync := c.forceAsync || a.forceAsync
  debug := c.debug || a.verbose
  fetchTimeout := c.fetchTimeout
  maxConcurrency := c.maxConcurrency
  aliases := c.aliases
  sourceMapSuffix := c.sourceMapSuffix

/-- The environment in which a manifest is run. -/
def runEnvironment (s : Surroundings) (a : RunArguments) (m : Manifest)
    (place : Remote := .offline) : Except LoaderError Environment := do
  let config := chosenConfiguration (← surroundingConfiguration s) a m
  config.validate
  let env ← Environment.forHost config s.files place
  return env.withSpecs (m.specs config.base)

/-- Register all modules of a manifest and let their retrievals start. -/
def startManifest (env : Environment) (m : Manifest) (w : Meanwhile) :
    Except LoaderError Unit × Environment :=
  match env.load .insideEventLoop m.ids with
  | (.error e, env) => (.error e, env)
  | (.ok (), env) =>
    let env := env.turnAll w.loaded
    if env.host = .browser then env.documentReady .insideEventLoop else (.ok (), env)

/-- Load all modules of a manifest and wait for them. -/
def loadManifest (env : Environment) (m : Manifest) (w : Meanwhile := {}) :
    Except LoaderError LoadReport × Environment :=
  match startManifest env m w with
  | (.error e, env) => (.error e, env)
  | (.ok (), env) => (env.turnAll w.ready).settle

/-- The line that tells what is about to be loaded. -/
def loadingLine (m : Manifest) (host : Host) : String :=
  bold (coloured green "Loading") ++ " " ++ natText m.modules.length ++ " modules on the " ++
    coloured cyan host.name ++ " host"

/-- The line that tells how many modules were evaluated. -/
def doneLine (r : LoadReport) : String :=
  bold (coloured green "Done") ++ " " ++ natText r.evaluated.length ++ " evaluated"

/-- The lines that tell what failed and what the order waits for. -/
def troubleLines (r : LoadReport) : List String :=
  r.failed.map (fun id => "  " ++ coloured red "failed" ++ " " ++ id) ++
    match r.blockedOn with
    | none => []
    | some id =>
      ["  " ++ coloured yellow "blocked" ++ " " ++ natText r.pending ++ " more waiting on " ++
        coloured cyan id]

/-- The line that tells that files are being watched. -/
def watchingLine (base : String) : String :=
  bold (coloured green "Watching") ++ " " ++ base ++ " (press Ctrl+C to stop)"

/-- What a run ends with that was asked to watch the files of its modules; watching itself is left
to the caller. -/
def watchOutcome (files : FileSystem) (base : String) (o : Outcome) : Outcome :=
  if isRemote base then
    { o with
      status := 1
      errors := o.errors ++ errorLines ("--watch needs a directory base, not " ++ base) [] }
  else
    match checkWatchable files base with
    | .error e => { o with status := 1, errors := o.errors ++ errorLines e.message (causesOf e) }
    | .ok () => { o with output := o.output ++ [watchingLine base] }

/-- What a run comes to that has an environment for its manifest. -/
def loadOutcome (s : Surroundings) (a : RunArguments) (m : Manifest) (env : Environment)
    (w : Meanwhile) : Outcome :=
  let (result, env) := loadManifest env m w
  let output := loadingLine m env.host :: env.takeOutput.1
  match result with
  | .error e => ⟨1, output, [bold (coloured red "Error") ++ ": " ++ e.message]⟩
  | .ok report =>
    let o : Outcome :=
      ⟨if report.isComplete then 0 else 1, output ++ [doneLine report], troubleLines report⟩
    if a.watch then watchOutcome s.files env.config.base o else o

/-- Load and evaluate all modules of a manifest. -/
def run (s : Surroundings) (a : RunArguments) (w : Meanwhile := {}) : Outcome :=
  match Manifest.fromFile s.files a.manifest with
  | .error e => .unreadableManifest a.manifest e
  | .ok m =>
    match runEnvironment s a m w.place with
    | .error e => .ofError [] e
    | .ok env => loadOutcome s a m env w

/-! ### Listing roots -/

/-- The roots that the modules at some locations declare, or the first location that cannot be
read. -/
def collectRoots (files : FileSystem) :
    List String → List String → Except (String × FileError) (List String)
  | names, [] => .ok names
  | names, location :: locations =>
    match files.read location with
    | .error e => .error (location, e)
    | .ok source =>
      collectRoots files ((Namespace.declaredRoots source).foldl Namespace.addName names) locations

/-- List the roots that the modules of a manifest declare, in the order they are first seen. -/
def roots (s : Surroundings) (path : String) : Outcome :=
  match Manifest.fromFile s.files path with
  | .error e => .unreadableManifest path e
  | .ok m =>
    let base := m.base?.getD ""
    if isRemote base then .failure [] ("roots needs a directory base, not " ++ base) []
    else
      match collectRoots s.files [] ((m.specs base).map (·.location)) with
      | .error (location, e) => .failure [] ("Failed to read " ++ location) [e.text]
      | .ok names => .success names

/-! ### Whole command lines -/

/-- What a request comes to. -/
def answer (s : Surroundings) (r : Request) (w : Meanwhile := {}) : Outcome :=
  match r with
  | .help topic => .success (helpLines topic)
  | .version topic => .success [versionLine topic]
  | .run arguments => run s arguments w
  | .roots manifest => roots s manifest

/-- The files a request depends on, as far as they can be told from the files known so far. -/
def filesNeeded (s : Surroundings) (r : Request) : List String :=
  let settings := s.userSettings.toList ++ [projectSettings]
  match r with
  | .help _ | .version _ => []
  | .roots path =>
    match Manifest.fromFile s.files path with
    | .error _ => [path]
    | .ok m => path :: (m.specs (m.base?.getD "")).map (·.location)
  | .run a =>
    match Manifest.fromFile s.files a.manifest with
    | .error _ => a.manifest :: settings
    | .ok m =>
      match runEnvironment s a m with
      | .error _ => a.manifest :: settings
      | .ok env =>
        a.manifest :: settings ++ env.config.base :: m.ids.map fun id => (env.specFor id).location

end ModuleLoader.Command
