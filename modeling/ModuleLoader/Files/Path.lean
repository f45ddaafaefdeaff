import ModuleLoader.Text.Segments

/-!
# Paths

Paths are texts whose components are separated by slashes.  Two paths are the same when their
components are: empty ones do not count, nor does a dot unless a relative path begins with it.
-/

set_option autoImplicit false

namespace ModuleLoader.Path

open ModuleLoader.Text

/-- Whether a path starts at the root. -/
def isAbsolute (path : String) : Bool := path.toList.head? == some '/'

/-- A path read relative to a directory: an absolute path stands for itself, and any other is
appended after a slash, which a directory that ends with one already has. -/
def join (directory path : String) : String :=
  if isAbsolute path || directory.isEmpty then path
  else if directory.toList.getLast? == some '/' then directory ++ path
  else directory ++ "/" ++ path

/-- Whether a piece between slashes counts as a component. -/
def counts (piece : String) : Bool := piece != "" && piece != "."

/-- The components of a path; the root is one of its own. -/
def components (path : String) : List String :=
  match splitOnChar '/' path with
  | [] => []
  | first :: rest =>
    if isAbsolute path then "/" :: rest.filter counts
    else if first = "." then "." :: rest.filter counts
    else (first :: rest).filter counts

/-- Drop, from the end of a reversed path, slashes and dots that do not count.  The root and a dot
at the very front stay. -/
def dropIdle : List Char → List Char
  | ['/'] => ['/']
  | '/' :: r => dropIdle r
  | '.' :: '/' :: r => dropIdle ('/' :: r)
  | r => r

/-- The path without its last component, if it has one besides the root. -/
def parent? (path : String) : Option String :=
  match dropIdle path.toList.reverse with
  | [] | ['/'] => none
  | r => some (String.ofList (dropIdle (r.dropWhile (· != '/'))).reverse)

end ModuleLoader.Path
