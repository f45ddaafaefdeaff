import ModuleLoader.Number.Shortest

/-!
# URLs

The parts of a URL, each already in the form in which it is written, and the URL as text.
-/

set_option autoImplicit false

namespace ModuleLoader

/-- The path of a URL. -/
inductive UrlPath where
  /-- A path that is not divided. -/
  | opaquePath (text : String)
  | segments (names : List String)
deriving DecidableEq, Repr

/-- The parts of a URL. -/
structure Url where
  scheme : String
  user : String
  password : String
  host : Option String
  port : Option Nat
  path : UrlPath
  query : Option String
  fragment : Option String
deriving DecidableEq, Repr

namespace Url

/-- The schemes with rules of their own, besides that of files. -/
def specialSchemes : List (String × Nat) :=
  [("http", 80), ("https", 443), ("ws", 80), ("wss", 443), ("ftp", 21)]

/-- Whether a scheme is one of those with rules of their own. -/
def isSpecial (scheme : String) : Bool :=
  scheme == "file" || specialSchemes.any (·.1 == scheme)

/-- The port of a scheme that need not be written. -/
def defaultPort? (scheme : String) : Option Nat :=
  (specialSchemes.find? (·.1 == scheme)).map (·.2)

/-- A text behind a mark, if there is one. -/
def marked (mark : String) : Option String → String
  | none => ""
  | some text => mark ++ text

/-- The user name and password with the mark that ends them. -/
def credentials (u : Url) : String :=
  if u.user = "" ∧ u.password = "" then ""
  else u.user ++ (if u.password = "" then "" else ":" ++ u.password) ++ "@"

/-- A path as it is written out. -/
def UrlPath.text : UrlPath → String
  | .opaquePath text => text
  | .segments names => String.join (names.map ("/" ++ ·))

/-- Everything between the scheme and the query.  Without a host, a path that begins with an empty
name is kept apart from one. -/
def body (u : Url) : String :=
  match u.host with
  | some host =>
    "//" ++ u.credentials ++ host ++
      marked ":" (u.port.map fun n => String.ofList (digits n)) ++ UrlPath.text u.path
  | none =>
    match u.path with
    | .segments ("" :: name :: names) => "/." ++ UrlPath.text (.segments ("" :: name :: names))
    | path => UrlPath.text path

/-- An address as it is written out. -/
def text (u : Url) : String :=
  u.scheme ++ ":" ++ u.body ++ marked "?" u.query ++ marked "#" u.fragment

end Url

end ModuleLoader
