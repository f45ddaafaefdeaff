import ModuleLoader.Script.Parse
import ModuleLoader.Script.Value

/-!
# Script errors

What can go wrong while a script is read or run, by cause, the category each cause belongs to and
its wording.  An error carries the line and column of the statement, or for an unreadable script
of the token, that raised it.
-/

set_option autoImplicit false

namespace ModuleLoader.Script

/-- The categories of script errors. -/
inductive Category where
  | syntaxError
  | typeError
  | referenceError
  | thrown
  | internalError
deriving DecidableEq, Repr

/-- What a category puts in front of a message. -/
def Category.label : Category → String
  | .syntaxError => "SyntaxError: "
  | .typeError => "TypeError: "
  | .referenceError => "ReferenceError: "
  | .thrown => "Uncaught "
  | .internalError => "InternalError: "

/-- The causes of script errors. -/
inductive Fault where
  | malformed (cause : SyntaxCause)
  | notDefined (name : String)
  | notFunction (name : String)
  /-- A property is read from a value that has none. -/
  | unreadable (holder : Value) (key : String)
  /-- A property is written to a value that has none. -/
  | unwritable (holder : Value) (key : String)
  /-- A root to declare is bound to something other than an object. -/
  | rootNotObject (root : String) (holder : Value)
  /-- A path to declare runs through a property that is not an object. -/
  | rootBlocked (path segment : String)
  | uncaught (value : Value)
  /-- A host function failed in its own words. -/
  | host (category : Category) (message : String)
deriving DecidableEq, Repr

namespace Fault

/-- The kind of error that a fault is. -/
def category : Fault → Category
  | .malformed _ => .syntaxError
  | .notDefined _ => .referenceError
  | .notFunction _ | .unreadable _ _ | .unwritable _ _ | .rootNotObject _ _ | .rootBlocked _ _ =>
    .typeError
  | .uncaught _ => .thrown
  | .host category _ => category

/-- The wording of a cause, without its category. -/
def message : Fault → String
  | .malformed cause => cause.message
  | .notDefined name => name ++ " is not defined"
  | .notFunction name => name ++ " is not a function"
  | .unreadable holder key =>
    "Cannot read properties of " ++ holder.text ++ " (reading '" ++ key ++ "')"
  | .unwritable holder key =>
    "Cannot set properties of " ++ holder.text ++ " (setting '" ++ key ++ "')"
  | .rootNotObject root holder =>
    "Root '" ++ root ++ "' is bound to " ++ holder.typeName ++ " instead of an object"
  | .rootBlocked path segment =>
    "Cannot declare '" ++ path ++ "': '" ++ segment ++ "' is already defined as a non-object"
  | .uncaught value => value.text
  | .host _ message => message

/-- The wording of a cause, with its category. -/
def text (f : Fault) : String := f.category.label ++ f.message

end Fault

/-- A script error with the line and column it is reported at. -/
structure ScriptError where
  fault : Fault
  line : Nat
  column : Nat
deriving DecidableEq, Repr

/-- The error of a fault at a place. -/
def Fault.at (f : Fault) (p : Place) : ScriptError := ⟨f, p.line, p.column⟩

/-- The error of a source that is no program. -/
def SyntaxError.toScriptError (e : SyntaxError) : ScriptError := (Fault.malformed e.cause).at e.place

end ModuleLoader.Script
