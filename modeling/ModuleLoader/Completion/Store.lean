import ModuleLoader.Completion.Record
import ModuleLoader.Table

/-!
# The record store

All records of one loader under their ids.  A record is made on the first request and never
removed.  Besides the regular moves a state can be forced, for a module that was loaded on another
way.
-/

set_option autoImplicit false

namespace ModuleLoader

/-- The records of the modules by their ids. -/
abbrev ModuleStore := Table ModuleRecord

namespace ModuleStore

/-- Make a requested record unless there is one, and tell whether one was made. -/
def ensure (s : ModuleStore) (spec : ModuleSpec) : Bool × ModuleStore :=
  match s.get? spec.id with
  | some _ => (false, s)
  | none => (true, s.set spec.id (.requested spec))

/-- The state of a module, if it is known. -/
def state? (s : ModuleStore) (id : String) : Option ModuleState := (s.get? id).map (·.state)

/-- Whether a module is known and has been evaluated. -/
def isLoaded (s : ModuleStore) (id : String) : Bool := (s.get? id).any (·.isLoaded)

/-- Make a regular move, and tell whether there was one to make. -/
def advance (s : ModuleStore) (id : String) (next : ModuleState) : Bool × ModuleStore :=
  match (s.get? id).bind (·.advance? next) with
  | some record => (true, s.set id record)
  | none => (false, s)

/-- Set a state whatever it was before; an unknown module gets a bare record. -/
def force (s : ModuleStore) (id : String) (state : ModuleState) : ModuleStore :=
  match s.get? id with
  | some record => s.set id { record with state }
  | none => s.set id (.bare id state)

/-- The store with a module taken as evaluated, whatever its record says. -/
def markLoaded (s : ModuleStore) (id : String) : ModuleStore := s.force id .evaluated

end ModuleStore

end ModuleLoader
