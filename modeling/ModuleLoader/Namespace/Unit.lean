import ModuleLoader.Failure
import ModuleLoader.Namespace.Declaration

/-!
# Wrapped units

A module body runs between a preamble and a trailer.  The preamble is a header line, one line per
alias that binds the whole scope, and one line per root that binds its container; the trailer names
the location and, if there is one, the source map.  Each preamble entry takes one line, so a
position in the body is a position in the unit less `lineOffset` lines.
-/

set_option autoImplicit false

namespace ModuleLoader.Namespace

/-- What units have in common within one loader. -/
structure WrapOptions where
  /-- Further names for the object that holds the roots. -/
  aliases : List String
  /-- What is appended to a module's id to name its source map. -/
  sourceMapSuffix : String
deriving DecidableEq, Repr

/-- The texts around a module when nothing else is chosen. -/
def WrapOptions.default : WrapOptions := ⟨["$BASE"], ".map"⟩

/-- Where a body comes from. -/
structure SourceInfo where
  module : String
  location : String
  hasSourceMap : Bool
deriving DecidableEq, Repr

/-- A body wrapped for the engine. -/
structure ExecutableUnit where
  module : String
  source : String
  /-- The number of lines before the body. -/
  lineOffset : Nat
deriving DecidableEq, Repr

/-- The line that a unit begins with. -/
def header : String := "// modboot unit"

/-- The line that binds an alias to the holder. -/
def aliasLine (name : String) : String := "var " ++ name ++ " = " ++ scopeBinding ++ ";"

/-- The line that binds a root to its container. -/
def rootLine (root : String) : String :=
  "var " ++ root ++ " = " ++ scopeBinding ++ "." ++ root ++ ";"

/-- The lines before the body; a root that is also an alias is bound as the alias. -/
def preamble (roots : List String) (options : WrapOptions) : List String :=
  header :: options.aliases.map aliasLine ++
    (roots.filter fun root => !options.aliases.contains root).map rootLine

/-- Lines of text, each with its end. -/
def linesText (lines : List String) : String := String.join (lines.map (· ++ "\n"))

/-- The lines behind the body, which tell where it comes from. -/
def trailer (info : SourceInfo) (options : WrapOptions) : String :=
  "\n//# sourceURL=" ++ info.location ++
    (if info.hasSourceMap then
      "\n//# sourceMappingURL=" ++ info.module ++ options.sourceMapSuffix
    else "") ++ "\n"

/-- Wrap a body so that every root in it resolves against the scope. -/
def wrap (body : String) (roots : List String) (info : SourceInfo) (options : WrapOptions) :
    ExecutableUnit :=
  let lines := preamble roots options
  ⟨info.module, linesText lines ++ body ++ trailer info options, lines.length⟩

/-- How the engine reports that a unit failed, with a position in the unit. -/
structure UnitFailure where
  message : String
  line : Option Nat
  column : Option Nat
deriving DecidableEq, Repr

/-- A unit's failure as one of its body: positions move up by the preamble, and one inside the
preamble is dropped. -/
def ExecutableUnit.bodyFailure (unit : ExecutableUnit) (f : UnitFailure) : EvaluationFailure :=
  let line := f.line.bind fun line =>
    if unit.lineOffset < line then some (line - unit.lineOffset) else none
  ⟨unit.module, f.message, line, line.bind fun _ => f.column⟩

end ModuleLoader.Namespace
