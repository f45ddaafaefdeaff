import ModuleLoader.Completion.Order
import ModuleLoader.Text.Blank
import ModuleLoader.Text.Case

/-!
# Hosts

The kinds of program a loader runs in, and the profile each of them implies: how code is
retrieved, what follows a failed evaluation and what a request to load does.
-/

set_option autoImplicit false

namespace ModuleLoader

/-- Where a loader runs. -/
inductive Host where
  | browser
  | worker
  | node
  /-- An embedded script engine without an event loop. -/
  | engine
  /-- A bundle of modules that is loaded as a whole. -/
  | esm
  | reactNative
  /-- A single file that is fixed once written. -/
  | static
deriving DecidableEq, Repr

/-- How a host retrieves code. -/
inductive RetrievalKind where
  /-- Many retrievals at once, by network for a remote base and from files for any other. -/
  | concurrentFetch
  /-- One blocking import at a time. -/
  | serialImport
  /-- One blocking file read at a time. -/
  | localSync
  /-- Not at all. -/
  | none
deriving DecidableEq, Repr

/-- What a request to load does. -/
inductive LoadBehavior where
  /-- Retrieve and evaluate every new module. -/
  | retrieve
  /-- Count the modules as loaded. -/
  | markOnly
  /-- Count the modules as loaded, and answer for every module that it is. -/
  | alwaysLoaded
  /-- Refuse. -/
  | unsupported
deriving DecidableEq, Repr

/-- Everything in which hosts differ. -/
structure HostProfile where
  retrieval : RetrievalKind
  policy : FailurePolicy
  behavior : LoadBehavior
  /-- Whether modules are held back at first, until the document is ready. -/
  documentWrite : Bool
  /-- Whether the timer functions fail. -/
  timersUnsupported : Bool
deriving DecidableEq, Repr

/-- The profile of a host that retrieves one module at a time. -/
def HostProfile.serial (retrieval : RetrievalKind) : HostProfile :=
  ⟨retrieval, .failFast, .retrieve, false, false⟩

/-- The profile of a host that retrieves nothing. -/
def HostProfile.bundled (behavior : LoadBehavior) : HostProfile :=
  ⟨.none, .failFast, behavior, false, false⟩

namespace Host

/-- The hosts, in the order in which they are listed. -/
def all : List Host := [browser, worker, node, engine, esm, reactNative, static]

/-- The name of a host. -/
def name : Host → String
  | browser => "browser"
  | worker => "worker"
  | node => "node"
  | engine => "engine"
  | esm => "esm"
  | reactNative => "react-native"
  | static => "static"

/-- How a host loads. -/
def profile : Host → HostProfile
  | browser => ⟨.concurrentFetch, .failForward, .retrieve, true, false⟩
  | worker => .serial .serialImport
  | node => .serial .localSync
  | engine => { HostProfile.serial .localSync with timersUnsupported := true }
  | esm => .bundled .markOnly
  | reactNative => .bundled .alwaysLoaded
  | static => .bundled .unsupported

/-- The host of a name, if there is one. -/
def named? (name : String) : Option Host := all.find? fun h => h.name == name

/-- The host a text names: blanks around the name, letter case and the choice between hyphen and
underscore do not matter. -/
def ofName? (text : String) : Option Host :=
  named? (Text.replaceChar '_' '-' (Text.asciiLower (Text.trim text)))

end Host

end ModuleLoader
