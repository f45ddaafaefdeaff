import ModuleLoader.Failure

/-!
# Diagnostics

Every failure a loader sees is kept as a diagnostic, whether or not it is also reported as an
error, and is announced as an event together with the loader's other announcements.
-/

set_option autoImplicit false

namespace ModuleLoader

/-- How urgent an event is. -/
inductive Level where
  | info
  | warning
  | error
deriving DecidableEq, Repr

/-- An announcement of the loader. -/
structure Event where
  level : Level
  text : String
deriving DecidableEq, Repr

/-- What kind of failure a diagnostic describes. -/
inductive DiagnosticKind where
  | retrieval
  | evaluation
deriving DecidableEq, Repr

/-- One recorded failure. -/
structure Diagnostic where
  kind : DiagnosticKind
  module : String
  location : String
  message : String
  line : Option Nat
  column : Option Nat
deriving DecidableEq, Repr

/-- The name of a kind of diagnostic, as it is shown. -/
def DiagnosticKind.name : DiagnosticKind → String
  | .retrieval => "retrieval"
  | .evaluation => "evaluation"

/-- A diagnostic on one line, with the line and the column it knows of. -/
def Diagnostic.text (d : Diagnostic) : String :=
  let column := match d.column with
    | some column => ":" ++ natText column
    | none => ""
  let place := match d.line with
    | some line => ":" ++ natText line ++ column
    | none => ""
  "[" ++ d.kind.name ++ "] " ++ d.module ++ " (" ++ d.location ++ ")" ++ place ++ ": " ++ d.message

/-- The warning that follows a failed evaluation when loading goes on. -/
def continuationWarning (module : String) : String :=
  "The above error occurred when loading \"" ++ module ++
    "\". Any additional errors after that one may be the result of that failure. In general your " ++
    "code cannot be trusted to execute properly after such a failure. Make sure to fix the first " ++
    "one before looking at others."

/-- The diagnostics and events of one loader, oldest first. -/
structure Journal where
  diagnostics : List Diagnostic
  events : List Event
deriving DecidableEq, Repr

namespace Journal

/-- The journal of a loader that has nothing to tell yet. -/
def empty : Journal := ⟨[], []⟩

/-- A journal with one more event. -/
def announce (j : Journal) (level : Level) (text : String) : Journal :=
  { j with events := j.events ++ [⟨level, text⟩] }

/-- A journal with one more diagnostic. -/
def keep (j : Journal) (d : Diagnostic) : Journal := { j with diagnostics := j.diagnostics ++ [d] }

/-- Announce a failed retrieval and keep its diagnostic. -/
def retrieval (j : Journal) (module location : String) (failure : RetrievalFailure) : Journal :=
  (j.announce .error ("retrieval failed: " ++ failure.message)).keep
    ⟨.retrieval, module, location, failure.message, none, none⟩

/-- Record a failed evaluation; when loading goes on after it, a warning says so. -/
def evaluation (j : Journal) (location : String) (failure : EvaluationFailure)
    (goesOn : Bool) : Journal :=
  let announced := j.announce .error ("evaluation failed: " ++ failure.message)
  let warned :=
    if goesOn then announced.announce .warning (continuationWarning failure.module) else announced
  warned.keep
    ⟨.evaluation, failure.module, location, failure.message, failure.line, failure.column⟩

end Journal

end ModuleLoader
