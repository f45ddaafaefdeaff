import ModuleLoader.Command.Arguments

/-!
# Help and version

The pages that the command line prints about itself.
-/

set_option autoImplicit false

namespace ModuleLoader.Command

/-- The version of the program. -/
def versionNumber : String := "0.1.0"

/-- The name of a command with that of the program in front. -/
def Topic.name : Topic → String
  | .program => "modboot"
  | .run => "modboot-run"
  | .roots => "modboot-roots"
  | .help => "modboot-help"

/-- The line that tells the version. -/
def versionLine (topic : Topic) : String := topic.name ++ " " ++ versionNumber

/-- The lines of help about a command or about the program. -/
def helpLines : Topic → List String
  | .program => [
    "modboot - load compiled modules in dependency order",
    "",
    "Usage: modboot [OPTIONS] <COMMAND>",
    "",
    "Commands:",
    "  run    Load and evaluate every module of a build manifest",
    "  roots  List the namespace roots a load would register",
    "  help   Print this message or the help of the given subcommand(s)",
    "",
    "Options:",
    "  -v, --verbose  Enable verbose logging",
    "  -h, --help     Print help",
    "  -V, --version  Print version"]
  | .run => [
    "Load and evaluate every module of a build manifest",
    "",
    "Usage: modboot run [OPTIONS] <MANIFEST>",
    "",
    "Arguments:",
    "  <MANIFEST>  Build manifest (JSON)",
    "",
    "Options:",
    "      --host <HOST>  Host to emulate (browser, worker, node, engine, esm, react-native, static)",
    "      --base <BASE>  Retrieval base, URL or directory (overrides the manifest)",
    "      --force-async  Skip the document-write phase",
    "      --watch        Re-evaluate modules when their files change",
    "  -v, --verbose      Enable verbose logging",
    "  -h, --help         Print help",
    "  -V, --version      Print version"]
  | .roots => [
    "List the namespace roots a load would register",
    "",
    "Usage: modboot roots [OPTIONS] <MANIFEST>",
    "",
    "Arguments:",
    "  <MANIFEST>  Build manifest (JSON)",
    "",
    "Options:",
    "  -v, --verbose  Enable verbose logging",
    "  -h, --help     Print help",
    "  -V, --version  Print version"]
  | .help => [
    "Print this message or the help of the given subcommand(s)",
    "",
    "Usage: modboot help [COMMAND]...",
    "",
    "Arguments:",
    "  [COMMAND]...  Print help for the subcommand(s)"]

end ModuleLoader.Command
