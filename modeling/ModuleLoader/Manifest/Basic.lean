import ModuleLoader.Completion.Record
import ModuleLoader.Json.Value
import ModuleLoader.Location
import ModuleLoader.Text.Blank

/-!
# Manifests

A manifest lists the modules of a build in load order, with the base they are retrieved from.
Reading a manifest accepts only one in which every module has an id of its own.
-/

set_option autoImplicit false

namespace ModuleLoader

/-- One module of a manifest. -/
structure ManifestModule where
  id : String
  /-- The module's path against the base, where that is not its id. -/
  path? : Option String
  hasSourceMap : Bool
deriving DecidableEq, Repr

/-- The path of a module, which is its id if the manifest gives none. -/
def ManifestModule.path (m : ManifestModule) : String := m.path?.getD m.id

/-- The modules of a build and their base. -/
structure Manifest where
  base? : Option String
  modules : List ManifestModule
deriving DecidableEq, Repr

/-- Read one module of a manifest. -/
def ManifestModule.ofJsonValue? (v : JsonValue) : Option ManifestModule := do
  match ← v.fields? ["id", "path", "sourceMap"] with
  | [some id, path, sourceMap] =>
    return {
      id := ← id.text?
      path? := ← JsonValue.fieldOr? (JsonValue.nullable? JsonValue.text?) none path
      hasSourceMap := ← JsonValue.fieldOr? JsonValue.boolean? false sourceMap }
  | _ => none

namespace Manifest

/-- Read a manifest. -/
def ofJsonValue? (v : JsonValue) : Option Manifest := do
  match ← v.fields? ["base", "modules"] with
  | [base, some modules] =>
    return {
      base? := ← JsonValue.fieldOr? (JsonValue.nullable? JsonValue.text?) none base
      modules := ← JsonValue.listOf? ManifestModule.ofJsonValue? modules }
  | _ => none

/-- The first module without an id of its own, given the ids that came before. -/
def faultAmong (seen : List String) : List ManifestModule → Option ManifestFault
  | [] => none
  | m :: ms =>
    if Text.isBlankText m.id then some .emptyId
    else if seen.contains m.id then some (.duplicateId m.id)
    else faultAmong (m.id :: seen) ms

/-- The first reason why a manifest is of no use. -/
def fault? (m : Manifest) : Option ManifestFault := faultAmong [] m.modules

/-- The manifest that a text describes, or what is wrong with it. -/
def parse (text : String) : Except LoaderError Manifest :=
  match (JsonValue.parse? text).bind ofJsonValue? with
  | none => .error .json
  | some m =>
    match m.fault? with
    | some fault => .error (.manifest fault)
    | none => .ok m

/-- The manifest with its base read against the directory that holds it. -/
def rebase (m : Manifest) (directory : String) : Manifest :=
  { m with base? := some <|
      match m.base? with
      | none => directory
      | some base => if isRemote base then base else Path.join directory base }

/-- Read a manifest file; its base is read against the directory of the file. -/
def fromFile (files : FileSystem) (path : String) : Except LoaderError Manifest :=
  match files.read path with
  | .error e => .error (.file e)
  | .ok text => (parse text).map (·.rebase ((Path.parent? path).getD "."))

/-- The ids of the modules, in order. -/
def ids (m : Manifest) : List String := m.modules.map (·.id)

/-- The first module with an id. -/
def find? (m : Manifest) (id : String) : Option ManifestModule := m.modules.find? (·.id == id)

/-- Where every module is retrieved from under a base. -/
def specs (m : Manifest) (base : String) : List ModuleSpec :=
  m.modules.map fun e => ⟨e.id, resolveLocation base e.path, e.hasSourceMap⟩

end Manifest

end ModuleLoader
