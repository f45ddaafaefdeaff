import ModuleLoader.Namespace.Unit
import ModuleLoader.Script.Engine

/-!
# The namespace of one loader

Every root is a property of one private object, the holder, and has its own container.  Evaluating
a module body registers the roots it declares, wraps it and runs it with the holder bound.
-/

set_option autoImplicit false

namespace ModuleLoader.Namespace

open ModuleLoader.Script

/-- The holder of the roots and the roots known so far, in the order they were first seen. -/
structure Scope where
  holder : ObjectId
  roots : List String
deriving DecidableEq, Repr

namespace Scope

/-- A scope without roots, whose holder is a fresh object. -/
def make (e : Engine) : Scope × Engine :=
  let (holder, e') := e.alloc
  (⟨holder, []⟩, e')

/-- Give a new root a container of its own, set on the holder whatever is there. -/
def addRoot (s : Scope) (e : Engine) (name : String) : Scope × Engine :=
  let (container, e') := e.alloc
  ({ s with roots := s.roots ++ [name] },
    { e' with heap := e'.heap.write s.holder name (.object container) })

/-- Register the roots of a list that are not known yet; answers the new ones. -/
def register (s : Scope) (e : Engine) : List String → List String × Scope × Engine
  | [] => ([], s, e)
  | name :: names =>
    if s.roots.contains name then s.register e names
    else
      let (s', e') := s.addRoot e name
      let (added, s'', e'') := s'.register e' names
      (name :: added, s'', e'')

/-- Register every root that a source declares and that is not known yet. -/
def discoverRoots (s : Scope) (e : Engine) (source : String) : List String × Scope × Engine :=
  s.register e (declaredRoots source)

/-- The container of a root, if the holder's property of that name is an object. -/
def root? (s : Scope) (e : Engine) (name : String) : Option ObjectId :=
  (e.heap.read s.holder name).bind Value.object?

end Scope

/-- Run a unit with the holder of the roots bound. -/
def ExecutableUnit.run (unit : ExecutableUnit) (e : Engine) (holder : ObjectId) :
    Except EvaluationFailure Unit × Engine :=
  match e.evaluate unit.source (Table.empty.set scopeBinding (.object holder)) with
  | (.ok _, e') => (.ok (), e')
  | (.error err, e') =>
    (.error (unit.bodyFailure ⟨err.fault.text, some err.line, some err.column⟩), e')

/-- A scope together with the engine its object graph lives in. -/
structure Layer where
  scope : Scope
  engine : Engine

namespace Layer

/-- A layer on an engine, with an empty scope. -/
def make (e : Engine) : Layer :=
  let (scope, e') := Scope.make e
  ⟨scope, e'⟩

/-- Evaluate one module body.  A blank body does nothing; else the roots it declares are
registered first, so that a module may declare a root and use it. -/
def loadModule (l : Layer) (options : WrapOptions) (info : SourceInfo) (body : String) :
    Except EvaluationFailure Unit × Layer :=
  if Text.isBlankText body then (.ok (), l)
  else
    let (_, scope, e) := l.scope.discoverRoots l.engine body
    let (result, e') := (wrap body scope.roots info options).run e scope.holder
    (result, ⟨scope, e'⟩)

end Layer

end ModuleLoader.Namespace
