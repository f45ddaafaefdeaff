import ModuleLoader.Url.Basic
import ModuleLoader.Url.Host

/-!
# Reading URLs

A text is read as a URL of its own when it begins with a scheme, and else, or when it only repeats
the scheme of the base, relative to the base.  Blanks at both ends do not count, nor do tabs and
line breaks anywhere.  In special schemes a backslash is a slash.
-/

set_option autoImplicit false

namespace ModuleLoader.Url

open ModuleLoader.Text

/-- Whether a character is a control character or the space, which do not count at the ends. -/
def isEdge (c : Char) : Bool := c.val.toNat ≤ 32

/-- The characters of a text that count: the edges are left out, and tabs and line breaks
everywhere. -/
def relevantChars (text : String) : List Char :=
  ((text.toList.dropWhile isEdge).reverse.dropWhile isEdge).reverse.filter fun c =>
    c != '\t' && c != '\n' && c != '\r'

/-- Whether a character separates the names of a path. -/
def isSlash (special : Bool) (c : Char) : Bool := c == '/' || (special && c == '\\')

/-- Whether a character can stand in a scheme after its first. -/
def isSchemeChar (c : Char) : Bool :=
  isAsciiLetter c || isAsciiDigit c || c == '+' || c == '-' || c == '.'

/-- The scheme at the front of a text, in small letters, and what follows its colon. -/
def scheme? (cs : List Char) : Option (String × List Char) :=
  match cs with
  | [] => none
  | c :: _ =>
    match cs.dropWhile isSchemeChar with
    | ':' :: rest =>
      if isAsciiLetter c then
        some (String.ofList ((cs.takeWhile isSchemeChar).map asciiLowerChar), rest)
      else none
    | _ => none

/-- Whether a character ends a path. -/
def endsPath (c : Char) : Bool := c == '?' || c == '#'

/-- The query and fragment at the front of a text. -/
def tail (special : Bool) (cs : List Char) : Option String × Option String :=
  let fragment : List Char → Option String
    | '#' :: r => some (encode inFragmentSet r)
    | _ => none
  match cs with
  | '?' :: r =>
    (some (encode (inQuerySet special) (r.takeWhile (· != '#'))), fragment (r.dropWhile (· != '#')))
  | _ => (none, fragment cs)

/-! ### Paths -/

/-- Whether a segment is one dot, escaped or not. -/
def isSingleDot (name : List Char) : Bool :=
  let small := name.map asciiLowerChar
  small == ['.'] || small == ['%', '2', 'e']

/-- Whether a segment is two dots, escaped or not. -/
def isDoubleDot (name : List Char) : Bool :=
  let small := name.map asciiLowerChar
  small == ['.', '.'] || small == ['.', '%', '2', 'e'] || small == ['%', '2', 'e', '.'] ||
    small == ['%', '2', 'e', '%', '2', 'e']

/-- The characters of a path between its slashes. -/
def pieces (special : Bool) (cs : List Char) : List (List Char) :=
  splitChars '/' (cs.map fun c => if isSlash special c then '/' else c)

/-- Whether a name is that of a drive: a letter and a colon, or a bar in its place. -/
def isDrive : List Char → Bool
  | [c, d] => isAsciiLetter c && (d == ':' || d == '|')
  | _ => false

/-- The names without the last; the drive of a file stays. -/
def goUp (isFile : Bool) (names : List String) : List String :=
  match names with
  | [name] => if isFile && isDrive name.toList then [name] else []
  | names => names.dropLast

/-- A name as it is written; a bar in the drive of a file becomes a colon. -/
def writtenName (isFile : Bool) (names : List String) (piece : List Char) : String :=
  if isFile && names.isEmpty && isDrive piece then String.ofList [piece.headD ' ', ':']
  else encode inPathSet piece

/-- Follow the pieces of a path from some names on.  A dot or two at the end leave an empty name. -/
def followPieces (isFile : Bool) (names : List String) : List (List Char) → List String
  | [] => names
  | [piece] =>
    if isDoubleDot piece then goUp isFile names ++ [""]
    else if isSingleDot piece then names ++ [""]
    else names ++ [writtenName isFile names piece]
  | piece :: next :: rest =>
    if isDoubleDot piece then followPieces isFile (goUp isFile names) (next :: rest)
    else if isSingleDot piece then followPieces isFile names (next :: rest)
    else followPieces isFile (names ++ [writtenName isFile names piece]) (next :: rest)

/-- The names that a path leads to from some names on. -/
def followPath (scheme : String) (names : List String) (path : List Char) : List String :=
  followPieces (scheme == "file") names (pieces (isSpecial scheme) path)

/-- The path after a host, which a special scheme always has. -/
def pathAfterHost (scheme : String) (path : List Char) : List String :=
  match path with
  | [] => if isSpecial scheme then [""] else []
  | c :: r => followPath scheme [] (if isSlash (isSpecial scheme) c then r else c :: r)

/-! ### Authorities -/

/-- The characters up to the end of an authority. -/
def authorityChars (special : Bool) (cs : List Char) : List Char :=
  cs.takeWhile fun c => !(isSlash special c || endsPath c)

/-- What comes before and after the last at sign. -/
def splitUser (cs : List Char) : Option (List Char × List Char) :=
  if cs.contains '@' then
    some ((cs.reverse.dropWhile (· != '@')).drop 1 |>.reverse,
      (cs.reverse.takeWhile (· != '@')).reverse)
  else none

/-- The user name and the password before an at sign. -/
def userOf (cs : List Char) : String × String :=
  (encode inUserSet (cs.takeWhile (· != ':')),
    encode inUserSet ((cs.dropWhile (· != ':')).drop 1))

/-- The characters of a host, which ends at a colon outside brackets. -/
def hostChars (inBrackets : Bool) : List Char → List Char
  | [] => []
  | c :: r =>
    if c = ':' ∧ inBrackets = false then []
    else c :: hostChars (if c = '[' then true else if c = ']' then false else inBrackets) r

/-- The port after a host: nothing when it is the usual one or missing. -/
def port? (scheme : String) : List Char → Option (Option Nat)
  | ':' :: ds =>
    if ds.all isAsciiDigit then
      let n := ds.foldl (fun n c => 10 * n + (c.val.toNat - 48)) 0
      if 65535 < n then none
      else some (if ds.isEmpty || defaultPort? scheme == some n then none else some n)
    else none
  | _ => some none

/-- A URL after the two slashes that follow its scheme. -/
def parseAuthority (scheme : String) (cs : List Char) : Option Url := do
  let special := isSpecial scheme
  let authority := authorityChars special cs
  let rest := cs.drop authority.length
  let (user, password) := ((splitUser authority).map fun s => userOf s.1).getD ("", "")
  let address := ((splitUser authority).map (·.2)).getD authority
  let hostText := hostChars false address
  let portText := address.drop hostText.length
  if hostText.isEmpty && (special || !portText.isEmpty || authority.contains '@') then none
  let host ← if special then specialHost? hostText else plainHost? hostText
  let port ← port? scheme portText
  let (query, fragment) := tail special (rest.dropWhile fun c => !endsPath c)
  return {
    scheme, user, password, port, query, fragment
    host := some host
    path := .segments (pathAfterHost scheme (rest.takeWhile fun c => !endsPath c)) }

/-! ### Files -/

/-- The host of a file and what follows it; a drive is no host, and a file on the machine itself has
an empty one. -/
def fileHost? (cs : List Char) : Option (String × List Char) :=
  let name := authorityChars true cs
  if isDrive name then some ("", cs)
  else if name.isEmpty then some ("", cs)
  else (specialHost? name).map fun host =>
    (if host = "localhost" then "" else host, cs.drop name.length)

/-- Whether a path begins with a drive, beside which a host has no place. -/
def hasDrive (names : List String) : Bool := names.head?.any fun name => isDrive name.toList

/-- The address of a file. -/
def parseFile (cs : List Char) : Option Url := do
  let (host, rest) ← match cs with
    | a :: b :: r =>
      if isSlash true a && isSlash true b then fileHost? r
      else if isSlash true a then some ("", b :: r)
      else some ("", cs)
    | _ => some ("", cs)
  let (query, fragment) := tail true (rest.dropWhile fun c => !endsPath c)
  let names := pathAfterHost "file" (rest.takeWhile fun c => !endsPath c)
  return {
    scheme := "file", user := "", password := "", port := none, query, fragment
    host := some (if hasDrive names then "" else host)
    path := .segments names }

/-! ### Whole URLs -/

/-- The URL of a scheme without rules, after its colon. -/
def parsePlain (scheme : String) (cs : List Char) : Option Url :=
  match cs with
  | '/' :: '/' :: r => parseAuthority scheme r
  | _ =>
    let (query, fragment) := tail false (cs.dropWhile fun c => !endsPath c)
    let text := cs.takeWhile fun c => !endsPath c
    let path := match text with
      | '/' :: r => UrlPath.segments (followPath scheme [] r)
      | _ => .opaquePath (encode isControl text)
    some { scheme, user := "", password := "", host := none, port := none, path, query, fragment }

/-- Read a text relative to a base of a special scheme other than that of files. -/
def parseRelative (base : Url) (cs : List Char) : Option Url :=
  let names := match base.path with
    | .segments names => names
    | .opaquePath _ => []
  let (query, fragment) := tail true (cs.dropWhile fun c => !endsPath c)
  match cs with
  | [] => some { base with fragment := none }
  | c :: r =>
    if isSlash true c then
      if r.head?.any (isSlash true) then parseAuthority base.scheme (cs.dropWhile (isSlash true))
      else
        some { base with
          path := .segments (followPath base.scheme [] (r.takeWhile fun c => !endsPath c))
          query, fragment }
    else if c = '?' then some { base with query, fragment }
    else if c = '#' then some { base with fragment }
    else
      some { base with
        path := .segments
          (followPath base.scheme names.dropLast (cs.takeWhile fun c => !endsPath c))
        query, fragment }

/-- Read a text after its scheme, and relative to the base if it only repeats that scheme. -/
def parseAfterScheme (base : Option Url) (scheme : String) (cs : List Char) : Option Url :=
  if scheme = "file" then parseFile cs
  else if isSpecial scheme then
    match base with
    | some b =>
      if b.scheme = scheme ∧ (cs.takeWhile (isSlash true)).length < 2 then parseRelative b cs
      else parseAuthority scheme (cs.dropWhile (isSlash true))
    | none => parseAuthority scheme (cs.dropWhile (isSlash true))
  else parsePlain scheme cs

/-- The address that a text is by itself. -/
def parse? (text : String) : Option Url :=
  (scheme? (relevantChars text)).bind fun s => parseAfterScheme none s.1 s.2

/-- Read a text relative to a base of a special scheme other than that of files. -/
def join? (base : Url) (text : String) : Option Url :=
  match scheme? (relevantChars text) with
  | some (scheme, rest) => parseAfterScheme (some base) scheme rest
  | none => parseRelative base (relevantChars text)

end ModuleLoader.Url
