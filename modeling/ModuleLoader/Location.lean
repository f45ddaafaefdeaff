import ModuleLoader.Files.Path
import ModuleLoader.Url.Parse

/-!
# Locations

Where a module is retrieved from, worked out from the base and the module's path.
-/

set_option autoImplicit false

namespace ModuleLoader

/-- Whether a base or a location is the address of a remote one. -/
def isRemote (location : String) : Bool :=
  "http://".toList.isPrefixOf location.toList || "https://".toList.isPrefixOf location.toList

/-- A base with a slash at its end. -/
def asDirectory (base : String) : String :=
  if base.toList.getLast? == some '/' then base else base ++ "/"

/-- Where a module is retrieved from under a remote base: what is no URL is taken as it stands. -/
def resolveRemote (base path : String) : String :=
  match (Url.parse? (asDirectory base)).bind fun url => url.join? path with
  | some url => url.text
  | none => asDirectory base ++ path

/-- Where a module is retrieved from.  A remote path stands for itself, as does any path without a
base. -/
def resolveLocation (base path : String) : String :=
  if isRemote path || base.isEmpty then path
  else if isRemote base then resolveRemote base path
  else Path.join base path

end ModuleLoader
