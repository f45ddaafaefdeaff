import ModuleLoader.Manifest.Basic

/-!
# The files of a manifest

An index leads from a file back to the module that is read from it.  Files are told apart by the
components of their paths; of two modules with one file the later counts.
-/

set_option autoImplicit false

namespace ModuleLoader

/-- A module as a change of its file concerns it. -/
structure IndexedModule where
  id : String
  hasSourceMap : Bool
deriving DecidableEq, Repr

/-- Modules under the components of their files' paths, each file once. -/
structure ModuleIndex where
  entries : List (List String × IndexedModule)
deriving DecidableEq, Repr

namespace ModuleIndex

/-- Put a module under a file in place of the one that was there. -/
def insert (index : ModuleIndex) (file : List String) (m : IndexedModule) : ModuleIndex :=
  ⟨index.entries.filter (·.1 != file) ++ [(file, m)]⟩

/-- The index of a manifest's modules under a directory. -/
def ofManifest (directory : String) (manifest : Manifest) : ModuleIndex :=
  manifest.modules.foldl
    (fun index m =>
      index.insert (Path.components (Path.join directory m.path)) ⟨m.id, m.hasSourceMap⟩)
    ⟨[]⟩

/-- The module whose file a path leads to. -/
def find? (index : ModuleIndex) (path : String) : Option IndexedModule :=
  (index.entries.find? (·.1 == Path.components path)).map (·.2)

/-- The number of modules that the index knows. -/
def size (index : ModuleIndex) : Nat := index.entries.length

end ModuleIndex

/-- Only a directory that exists can be watched for changes. -/
def checkWatchable (files : FileSystem) (directory : String) : Except LoaderError Unit :=
  match files.node directory with
  | .error e => .error (.config (.cannotWatch directory e))
  | .ok _ => .ok ()

end ModuleLoader
