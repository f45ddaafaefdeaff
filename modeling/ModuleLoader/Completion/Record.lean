import ModuleLoader.Failure

/-!
# Module records

The load state of one module.  A record only moves forward, from requested to retrieved to
evaluated or failed, and the last two are final for all regular moves.
-/

set_option autoImplicit false

namespace ModuleLoader

/-- Why a module failed. -/
inductive FailureCause where
  | retrieval (failure : RetrievalFailure)
  | evaluation (failure : EvaluationFailure)
deriving DecidableEq, Repr

/-- The load state of one module. -/
inductive ModuleState where
  /-- Retrieval has been asked for. -/
  | requested
  /-- The code is there and waits for the modules before it. -/
  | retrieved (code : String)
  /-- The module has been evaluated, or is to count as such. -/
  | evaluated
  | failed (cause : FailureCause)
deriving DecidableEq, Repr

namespace ModuleState

/-- Evaluated and failed modules make no further regular move. -/
def isTerminal : ModuleState → Bool
  | .evaluated | .failed _ => true
  | _ => false

/-- The name of a state, as it is shown. -/
def label : ModuleState → String
  | .requested => "requested"
  | .retrieved _ => "retrieved"
  | .evaluated => "evaluated"
  | .failed (.retrieval _) => "retrieval-failed"
  | .failed (.evaluation _) => "evaluation-failed"

/-- Whether a regular move leads from one state to another. -/
def allows : ModuleState → ModuleState → Bool
  | .requested, .requested => false
  | .requested, _ => true
  | .retrieved _, .evaluated | .retrieved _, .failed _ => true
  | _, _ => false

/-- Nothing follows a terminal state. -/
theorem allows_of_isTerminal {s : ModuleState} (h : s.isTerminal) (next : ModuleState) :
    s.allows next = false := by
  cases s <;> simp_all [isTerminal, allows]

end ModuleState

/-- What is known about a module before it is loaded. -/
structure ModuleSpec where
  /-- The module's id, also its path relative to the base. -/
  id : String
  /-- Where its code is retrieved from. -/
  location : String
  hasSourceMap : Bool
deriving DecidableEq, Repr

/-- A module the loader keeps track of. -/
structure ModuleRecord where
  id : String
  location : String
  hasSourceMap : Bool
  state : ModuleState
deriving DecidableEq, Repr

namespace ModuleRecord

/-- The record of a module whose retrieval has just been asked for. -/
def requested (spec : ModuleSpec) : ModuleRecord :=
  ⟨spec.id, spec.location, spec.hasSourceMap, .requested⟩

/-- The record of a module that is known by its id alone. -/
def bare (id : String) (state : ModuleState) : ModuleRecord := ⟨id, id, false, state⟩

/-- Make a regular move, if there is one to that state. -/
def advance? (r : ModuleRecord) (next : ModuleState) : Option ModuleRecord :=
  if r.state.allows next then some { r with state := next } else none

/-- Whether the module has been evaluated. -/
def isLoaded (r : ModuleRecord) : Bool := r.state = .evaluated

end ModuleRecord

end ModuleLoader
