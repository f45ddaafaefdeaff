import ModuleLoader.Configuration.Basic
import ModuleLoader.Diagnostic

/-!
# Settings as text

A setting is a key and a value, both text.  Hyphens in a key stand for underscores, and the value
of a list is its items with commas between them.  An unknown key changes nothing and is announced.
-/

set_option autoImplicit false

namespace ModuleLoader

open ModuleLoader.Text

/-- The truth value that a word stands for, in any case of letters. -/
def truthValue? (text : String) : Option Bool :=
  let word := asciiLower (trim text)
  if word = "true" ∨ word = "1" ∨ word = "yes" then some true
  else if word = "false" ∨ word = "0" ∨ word = "no" then some false
  else none

/-- The number a list of digits denotes in base ten, if it is not empty. -/
def numeral? (cs : List Char) : Option Nat :=
  if cs.isEmpty || !cs.all isAsciiDigit then none
  else some (cs.foldl (fun n c => 10 * n + (c.val.toNat - 48)) 0)

/-- The number of sixty-four bits a text stands for; one plus sign may come before its digits. -/
def wordNumber? (text : String) : Option Nat :=
  let number := match trimChars text.toList with
    | '+' :: digits => numeral? digits
    | digits => numeral? digits
  number.filter (· < Nat.pow 2 64)

/-- The items of a list given as text; blanks around an item do not count, nor do empty items. -/
def listItems (text : String) : List String :=
  ((splitOnChar ',' text).map trim).filter (· != "")

namespace Configuration

/-- Read a truth value for a key. -/
def readBoolean (key value : String) : Except LoaderError Bool :=
  match truthValue? value with
  | some b => .ok b
  | none => .error (.config (.notBoolean key value))

/-- Read a number for a key. -/
def readNumber (key value : String) : Except LoaderError Nat :=
  match wordNumber? value with
  | some n => .ok n
  | none => .error (.config (.notNumber key value))

/-- Read the name of a host. -/
def readHost (value : String) : Except LoaderError Host :=
  match Host.ofName? value with
  | some h => .ok h
  | none => .error (.config (.unknownHost value))

/-- The configuration with one choice made, if the key is that of a choice. -/
def choose? (c : Configuration) (key value : String) : Option (Except LoaderError Configuration) :=
  match key with
  | "host" => some ((readHost value).map fun host => { c with host })
  | "base" => some (.ok { c with base := value })
  | "force_async" => some ((readBoolean key value).map fun forceAsync => { c with forceAsync })
  | "debug" => some ((readBoolean key value).map fun debug => { c with debug })
  | "fetch_timeout_secs" =>
    some ((readNumber key value).map fun fetchTimeout => { c with fetchTimeout })
  | "max_concurrency" =>
    some ((readNumber key value).map fun maxConcurrency => { c with maxConcurrency })
  | "compat_aliases" => some (.ok { c with aliases := listItems value })
  | "source_map_suffix" => some (.ok { c with sourceMapSuffix := value })
  | _ => none

end Configuration

/-- A configuration in the making, with what was announced on the way. -/
structure Draft where
  config : Configuration
  events : List Event

namespace Draft

/-- The default configuration, nothing announced. -/
def initial : Draft := ⟨.default, []⟩

/-- Choose a value for a key, written with hyphens or underscores; an unknown key is only warned
of. -/
def set (d : Draft) (key value : String) : Except LoaderError Unit × Draft :=
  let key := replaceChar '-' '_' key
  match d.config.choose? key value with
  | some (.ok config) => (.ok (), { d with config })
  | some (.error e) => (.error e, d)
  | none =>
    (.ok (), { d with
      events := d.events ++ [⟨.warning, "Ignoring unknown config key '" ++ key ++ "'"⟩] })

/-- Apply settings in turn, up to the first that fails. -/
def setAll (d : Draft) : List (String × String) → Except LoaderError Unit × Draft
  | [] => (.ok (), d)
  | (key, value) :: settings =>
    match d.set key value with
    | (.error e, d) => (.error e, d)
    | (.ok (), d) => d.setAll settings

end Draft

end ModuleLoader
