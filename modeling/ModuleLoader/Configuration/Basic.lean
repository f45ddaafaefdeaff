import ModuleLoader.Host
import ModuleLoader.Namespace.Unit

/-!
# Configuration

What can be chosen about a loader, and which choices no loader can work with.
-/

set_option autoImplicit false

namespace ModuleLoader

/-- The choices for one loader. -/
structure Configuration where
  host : Host
  /-- Where modules are retrieved from: a directory or the address of a remote one. -/
  base : String
  /-- Never hold modules back. -/
  forceAsync : Bool
  /-- Announce every module that is loaded. -/
  debug : Bool
  /-- The time limit of one retrieval in seconds. -/
  fetchTimeout : Nat
  /-- How many retrievals may be under way at once. -/
  maxConcurrency : Nat
  /-- Further names for the object that holds the roots. -/
  aliases : List String
  /-- What is appended to a module's id to name its source map. -/
  sourceMapSuffix : String
deriving DecidableEq, Repr

namespace Configuration

/-- The configuration of a loader for which nothing is chosen. -/
def default : Configuration where
  host := .node
  base := ""
  forceAsync := false
  debug := false
  fetchTimeout := 60
  maxConcurrency := 16
  aliases := Namespace.WrapOptions.default.aliases
  sourceMapSuffix := Namespace.WrapOptions.default.sourceMapSuffix

/-- The most retrievals that may be under way at once. -/
def mostConcurrency : Nat := 2305843009213693951

/-- Whether a name can be bound in a script: it is an identifier and no keyword. -/
def isBindable (name : String) : Bool := Text.isIdentifier name && !Script.isKeyword name

/-- The first reason why no loader can work with a configuration. -/
def fault? (c : Configuration) : Option ConfigFault :=
  if c.fetchTimeout = 0 then some .noTimeout
  else if c.maxConcurrency = 0 then some .noConcurrency
  else if mostConcurrency < c.maxConcurrency then some (.excessConcurrency mostConcurrency)
  else if c.sourceMapSuffix = "" then some .emptySuffix
  else (c.aliases.find? fun name => !isBindable name).map .badAlias

/-- Accept only a configuration a loader can work with. -/
def validate (c : Configuration) : Except LoaderError Unit :=
  match c.fault? with
  | some fault => .error (.config fault)
  | none => .ok ()

/-- A configuration is valid just when its numbers are within their bounds, its suffix is not empty
and its aliases can be bound. -/
theorem validate_eq_ok {c : Configuration} : c.validate = .ok () ↔
    c.fetchTimeout ≠ 0 ∧ c.maxConcurrency ≠ 0 ∧ c.maxConcurrency ≤ mostConcurrency ∧
      c.sourceMapSuffix ≠ "" ∧ ∀ name ∈ c.aliases, isBindable name = true := by
  have hnone : c.validate = .ok () ↔ c.fault? = none := by
    unfold validate
    cases c.fault? <;> simp
  have hpass (p : Prop) [Decidable p] (fault : ConfigFault) (next : Option ConfigFault) :
      (if p then some fault else next) = none ↔ ¬p ∧ next = none := by
    split <;> simp_all
  rw [hnone]
  simp [fault?, hpass]

/-- What a configuration says of the texts that modules are wrapped in. -/
def wrapOptions (c : Configuration) : Namespace.WrapOptions := ⟨c.aliases, c.sourceMapSuffix⟩

end Configuration

end ModuleLoader
