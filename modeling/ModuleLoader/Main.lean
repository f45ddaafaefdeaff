import ModuleLoader.Command.Outcome

/-!
# The command line program

Reads the files that a request depends on, then prints what the request comes to.  Remote places are
out of its reach.
-/

set_option autoImplicit false

namespace ModuleLoader.Command

/-- The error that the operating system reports. -/
def fileErrorOf : IO.Error → FileError
  | .noFileOrDirectory .. => .missing
  | .inappropriateType _ code details =>
    if code = 21 then .isDirectory else if code = 20 then .notDirectory else ⟨.other, details⟩
  | e => ⟨.other, toString e⟩

/-- Look what stands at a path. -/
def probe (path : String) : IO (Except FileError FileNode) := do
  if path.toList.contains '\x00' then return .error .nulInName
  if path.isEmpty then return .error .missing
  try
    return .ok (.file (String.fromUTF8? (← IO.FS.readBinFile path)))
  catch e =>
    match fileErrorOf e with
    | ⟨_, text⟩ => if text = FileError.isDirectory.text then return .ok .directory
    return .error (fileErrorOf e)

/-- The files that have been looked at; all others are missing. -/
def systemOf (seen : List (String × Except FileError FileNode)) : FileSystem :=
  ⟨fun path => ((seen.find? (·.1 == path)).map (·.2)).getD (.error .missing)⟩

/-- The variables of the environment, with their values. -/
def environmentVariables : IO (List (String × String)) := do
  try
    let text := (String.fromUTF8? (← IO.FS.readBinFile "/proc/self/environ")).getD ""
    return (Text.splitOnChar '\x00' text).filterMap fun entry =>
      match entry.toList.dropWhile (· != '=') with
      | [] => none
      | _ :: value => some (String.ofList (entry.toList.takeWhile (· != '=')), String.ofList value)
  catch _ => return []

/-- Where the settings of the user are, by the variables of the environment. -/
def userSettingsPath : IO (Option String) := do
  match ← IO.getEnv "XDG_CONFIG_HOME" with
  | some directory =>
    if Path.isAbsolute directory then return some (Path.join directory "modboot/config.toml")
  | none => pure ()
  return (← IO.getEnv "HOME").map fun home => Path.join home ".config/modboot/config.toml"

/-- Answer a request: look at the files it depends on until no more are needed. -/
def perform (request : Request) : IO Outcome := do
  let bindings ← environmentVariables
  let userSettings ← userSettingsPath
  let mut seen : List (String × Except FileError FileNode) := []
  for _ in [0, 1, 2] do
    let s : Surroundings := ⟨systemOf seen, bindings, userSettings⟩
    for path in filesNeeded s request do
      unless seen.any (·.1 == path) do
        seen := seen ++ [(path, ← probe path)]
  return answer ⟨systemOf seen, bindings, userSettings⟩ request

end ModuleLoader.Command

open ModuleLoader.Command in
/-- Read the arguments, perform the request, and write what it comes to. -/
def main (arguments : List String) : IO UInt32 := do
  match Request.read arguments with
  | .error e =>
    IO.eprintln ("error: " ++ e.message)
    return 2
  | .ok request =>
    let outcome ← perform request
    for line in outcome.output do
      IO.println line
    for line in outcome.errors do
      IO.eprintln line
    return outcome.status.toUInt32
