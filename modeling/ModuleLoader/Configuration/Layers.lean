import ModuleLoader.Configuration.Setting
import ModuleLoader.Toml.Document

/-!
# Layers of configuration

A configuration is built up from the defaults by the user's file, the project's file and the
variables of the environment, in that order.  Files that do not exist are passed over, and what
comes out must be of use to a loader.
-/

set_option autoImplicit false

namespace ModuleLoader

namespace Toml

/-- A value as the text of a setting; a date or time alone is written as a table of one entry. -/
def settingItem : TomlValue → String
  | .string s => s
  | .datetime s => (TomlValue.table [("$__toml_private_datetime", .string s)]).text
  | v => v.text

/-- A value as the text of a setting; the items of an array have commas between them. -/
def settingText : TomlValue → String
  | .array items => ",".intercalate (items.map settingItem)
  | v => settingItem v

/-- The settings of a table, in ascending order of their keys. -/
def settings (t : Table TomlValue) : List (String × String) :=
  t.entries.map fun e => (e.1, settingText e.2)

end Toml

/-- What the names of the variables that are settings begin with. -/
def variableMark : String := "MODBOOT_"

/-- The setting that a variable of the environment is, if it is one. -/
def variableSetting? (v : String × String) : Option (String × String) :=
  if variableMark.toList.isPrefixOf v.1.toList then
    some (Text.lower (String.ofList (v.1.toList.drop variableMark.length)), v.2)
  else none

namespace Draft

/-- Take the settings of a file, one after the other. -/
def addText (d : Draft) (text : String) : Except LoaderError Unit × Draft :=
  match Toml.parse? text with
  | none => (.error .toml, d)
  | some t => d.setAll (Toml.settings t)

/-- Apply the settings in a file, if it exists. -/
def addFile (d : Draft) (files : FileSystem) (path : String) : Except LoaderError Unit × Draft :=
  if files.exists? path then
    match files.read path with
    | .error e => (.error (.file e), d)
    | .ok text => d.addText text
  else (.ok (), d)

/-- Apply the settings in some files in turn, up to the first that fails. -/
def addFiles (d : Draft) (files : FileSystem) : List String → Except LoaderError Unit × Draft
  | [] => (.ok (), d)
  | path :: paths =>
    match d.addFile files path with
    | (.error e, d) => (.error e, d)
    | (.ok (), d) => d.addFiles files paths

end Draft

namespace Configuration

/-- Build a configuration up from files and variables; answers also what was announced. -/
def load (files : FileSystem) (paths : List String) (bindings : List (String × String)) :
    Except LoaderError Configuration × List Event :=
  match Draft.initial.addFiles files paths with
  | (.error e, d) => (.error e, d.events)
  | (.ok (), d) =>
    match d.setAll (bindings.filterMap variableSetting?) with
    | (.error e, d) => (.error e, d.events)
    | (.ok (), d) => (d.config.validate.map fun _ => d.config, d.events)

end Configuration

end ModuleLoader
