import ModuleLoader.Script.Token

/-!
# Programs

The tree of a script: expressions, the actions a statement may take, and a program as its
statements in source order, each with the span of its first token.
-/

set_option autoImplicit false

namespace ModuleLoader.Script

/-- A dotted path, a name and the properties read from it in turn. -/
structure Path where
  head : String
  properties : List String
deriving DecidableEq, Repr

/-- The names of a path, its head first. -/
def Path.segments (p : Path) : List String := p.head :: p.properties

/-- Expressions. -/
inductive Expression where
  | number (value : Binary64)
  | string (value : String)
  | boolean (value : Bool)
  | null
  | undefined
  /-- A fresh empty object. -/
  | emptyObject
  | path (path : Path)
deriving DecidableEq, Repr

/-- What a statement does. -/
inductive Action where
  /-- Bind a local name. -/
  | var (name : String) (init : Expression)
  /-- Create the objects along a dotted path. -/
  | declareRoot (path : String)
  | assign (target : Path) (value : Expression)
  | throw (value : Expression)
  | call (callee : String) (arguments : List Expression)
  | expression (value : Expression)
deriving DecidableEq, Repr

/-- A statement with the span of its first token. -/
structure Statement where
  action : Action
  span : Span
deriving DecidableEq, Repr

/-- A program is its statements in source order. -/
abbrev Program := List Statement

end ModuleLoader.Script
