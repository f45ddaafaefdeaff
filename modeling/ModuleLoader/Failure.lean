import ModuleLoader.Files.System
import ModuleLoader.Number.Whole

/-!
# What can go wrong while loading

Retrieval failures, evaluation failures and the errors of the loader's operations, each by cause
and with its wording.
-/

set_option autoImplicit false

namespace ModuleLoader

/-- A natural number in decimal digits. -/
def natText (n : Nat) : String := String.ofList (digits n)

/-- Why a module's code could not be retrieved. -/
inductive RetrievalFailure where
  | notFound (what : String)
  | status (code : Nat) (location : String)
  | network (what : String)
  | file (what : String)
  | timeout (location : String)
deriving DecidableEq, Repr

namespace RetrievalFailure

/-- The message of a failed retrieval. -/
def message : RetrievalFailure → String
  | .notFound what => "Not found: " ++ what
  | .status code location => "HTTP " ++ natText code ++ " for " ++ location
  | .network what => "Network error: " ++ what
  | .file what => "I/O error: " ++ what
  | .timeout location => "Timed out retrieving " ++ location

/-- What a retrieval comes to when its file cannot be read. -/
def ofFileError (e : FileError) : RetrievalFailure :=
  match e.kind with
  | .missing => .notFound e.text
  | .other => .file e.text

/-- A file error as a retrieval failure that names the location read. -/
def ofFileErrorAt (location : String) (e : FileError) : RetrievalFailure :=
  match e.kind with
  | .missing => .notFound location
  | .other => .file (location ++ ": " ++ e.text)

end RetrievalFailure

/-- A module that failed while it was evaluated; a line and column lie in the module's own body. -/
structure EvaluationFailure where
  module : String
  message : String
  line : Option Nat
  column : Option Nat
deriving DecidableEq, Repr

/-- The position of a failure as far as it is known; a column without a line counts for nothing. -/
def EvaluationFailure.position (f : EvaluationFailure) : String :=
  match f.line, f.column with
  | some line, some column => natText line ++ ":" ++ natText column
  | some line, none => natText line
  | none, _ => ""

/-- Why a configuration is of no use. -/
inductive ConfigFault where
  | unknownHost (name : String)
  | notBoolean (key value : String)
  | notNumber (key value : String)
  | noTimeout
  | noConcurrency
  | excessConcurrency (most : Nat)
  | emptySuffix
  | badAlias (name : String)
  | needsTransport (host : String)
  | needsDirectory (host base : String)
  | cannotWatch (directory : String) (error : FileError)
  | stated (text : String)
deriving DecidableEq, Repr

/-- The message of a fault of a configuration. -/
def ConfigFault.message : ConfigFault → String
  | .unknownHost name => "Unknown host '" ++ name ++ "'"
  | .notBoolean key value => key ++ " expects a boolean, got '" ++ value ++ "'"
  | .notNumber key value => key ++ " expects a number, got '" ++ value ++ "'"
  | .noTimeout => "fetch_timeout_secs must be at least 1"
  | .noConcurrency => "max_concurrency must be at least 1"
  | .excessConcurrency most => "max_concurrency must be at most " ++ natText most
  | .emptySuffix => "source_map_suffix must not be empty"
  | .badAlias name => "compat alias '" ++ name ++ "' is not an identifier"
  | .needsTransport host => "the " ++ host ++ " host needs a transport"
  | .needsDirectory host base =>
    "the " ++ host ++ " host reads modules from a directory, not " ++ base
  | .cannotWatch directory error => "cannot watch " ++ directory ++ ": " ++ error.text
  | .stated text => text

/-- Why a manifest is of no use. -/
inductive ManifestFault where
  | emptyId
  | duplicateId (id : String)
  | stated (text : String)
deriving DecidableEq, Repr

/-- The message of a fault of a manifest. -/
def ManifestFault.message : ManifestFault → String
  | .emptyId => "module with empty id"
  | .duplicateId id => "duplicate module id '" ++ id ++ "'"
  | .stated text => text

/-- The errors of the loader's operations. -/
inductive LoaderError where
  | retrieval (module location : String) (cause : RetrievalFailure)
  | evaluation (failure : EvaluationFailure)
  | unsupported (host operation : String)
  | config (fault : ConfigFault)
  | manifest (fault : ManifestFault)
  | file (error : FileError)
  /-- A text is not JSON of the expected form. -/
  | json
  /-- A text is not TOML. -/
  | toml
  /-- Concurrent retrieval was asked for outside an event loop. -/
  | noEventLoop
deriving DecidableEq, Repr

namespace LoaderError

/-- The message of an error, with those of its causes. -/
def message : LoaderError → String
  | .retrieval module location cause =>
    "Failed to load '" ++ module ++ "' from " ++ location ++ ": " ++ cause.message
  | .evaluation failure =>
    let place := if failure.position = "" then "" else " at " ++ failure.position
    "Error evaluating '" ++ failure.module ++ "'" ++ place ++ ": " ++ failure.message
  | .unsupported host operation => operation ++ " is not supported by the " ++ host ++ " host"
  | .config fault => "Configuration error: " ++ fault.message
  | .manifest fault => "Invalid manifest: " ++ fault.message
  | .file error => "File system error: " ++ error.text
  | .json => "JSON parse error"
  | .toml => "TOML parse error"
  | .noEventLoop => "Runtime error: concurrent retrieval needs an event loop"

/-- The module an error is about, if it is about one. -/
def module? : LoaderError → Option String
  | .retrieval module _ _ => some module
  | .evaluation failure => some failure.module
  | _ => none

end LoaderError

end ModuleLoader
