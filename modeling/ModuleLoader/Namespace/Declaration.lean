import ModuleLoader.Script.Token
import ModuleLoader.Text.Blank
import ModuleLoader.Text.Identifier
import ModuleLoader.Text.Segments

/-!
# Root declarations in a source

Roots are found in the text of a module before it runs, by the shape
`declare-root(` blanks, a quote, a path without quotes, a quote, blanks, `)`.  The two quotes need
not be of one kind.  Occurrences are taken from left to right and do not overlap.  Main statement:
`declaration?_shorter`, an occurrence consumes characters.
-/

set_option autoImplicit false

namespace ModuleLoader.Namespace

open ModuleLoader.Text

/-- The name under which every unit sees the object that holds the roots. -/
def scopeBinding : String := "$ROOTS"

/-- Whether a character opens or closes a path. -/
def isQuote (c : Char) : Bool := c == '"' || c == '\''

/-- What a declaration starts with; nothing stands between the word and the bracket. -/
def declarationHead : List Char := "declare-root(".toList

/-- The path declared at the very front of a text, and what follows the declaration. -/
def declaration? (cs : List Char) : Option (List Char × List Char) :=
  if declarationHead.isPrefixOf cs then
    match dropBlanks (cs.drop declarationHead.length) with
    | [] => none
    | q :: r =>
      match r.dropWhile (!isQuote ·) with
      | [] => none
      | _ :: r' =>
        match dropBlanks r' with
        | [] => none
        | c :: rest =>
          if isQuote q && !(r.takeWhile (!isQuote ·)).isEmpty && c == ')' then
            some (r.takeWhile (!isQuote ·), rest)
          else none
  else none

/-- Leaving blanks out makes a text no longer. -/
theorem length_dropBlanks_le (cs : List Char) : (dropBlanks cs).length ≤ cs.length :=
  (List.dropWhile_sublist _).length_le

/-- What stands behind a declaration is shorter than the text with it. -/
theorem declaration?_shorter {cs path rest : List Char} (h : declaration? cs = some (path, rest)) :
    rest.length < cs.length := by
  unfold declaration? at h
  split at h
  · rename_i hp
    have hlen := (List.isPrefixOf_iff_prefix.1 hp).length_le
    have h1 := length_dropBlanks_le (cs.drop declarationHead.length)
    split at h
    · cases h
    · rename_i q r hq
      have h2 : (r.dropWhile (!isQuote ·)).length ≤ r.length := (List.dropWhile_sublist _).length_le
      split at h
      · cases h
      · rename_i c r' hr
        have h3 := length_dropBlanks_le r'
        split at h
        · cases h
        · rename_i d rest' hd
          split at h
          · cases h
            rw [hq] at h1
            rw [hr] at h2
            rw [hd] at h3
            simp only [List.length_cons, List.length_drop] at h1 h2 h3
            omega
          · cases h
  · cases h

/-- The paths declared in a text, from left to right. -/
def declarations (cs : List Char) : List (List Char) :=
  match _h : declaration? cs with
  | some (path, rest) => path :: declarations rest
  | none =>
    match cs with
    | [] => []
    | _ :: r => declarations r
termination_by cs.length
decreasing_by
  · exact declaration?_shorter _h
  · simp

/-- The root of a path is its first segment. -/
def rootOf (path : List Char) : String := String.ofList (path.takeWhile (· != '.'))

/-- A root must be an identifier that is neither reserved nor the name of the scope itself. -/
def isRootName (name : String) : Bool :=
  isIdentifier name && !Script.isKeyword name && name != scopeBinding

/-- A list with a name at its end, unless it is already there. -/
def addName (names : List String) (name : String) : List String :=
  if names.contains name then names else names ++ [name]

/-- The roots a source declares, each once, in the order of their first declarations. -/
def declaredRoots (source : String) : List String :=
  (((declarations source.toList).map rootOf).filter isRootName).foldl addName []

end ModuleLoader.Namespace
