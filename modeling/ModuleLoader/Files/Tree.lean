import ModuleLoader.Files.Path
import ModuleLoader.Files.System

/-!
# A tree of files

A file system given by its files, and how a path finds its way through the directories: it starts
at the root or at the current directory, a dot stays, two dots go up, and every component but the
last has to be a directory.
-/

set_option autoImplicit false

namespace ModuleLoader

/-- Files and directories by the names that lead to them from the root; the directories on the way
are there too. -/
structure FileTree where
  entries : List (List String × FileNode)

namespace FileTree

/-- What is at the end of some names, starting from the root. -/
def at? (t : FileTree) (names : List String) : Option FileNode :=
  match t.entries.find? (·.1 == names) with
  | some e => some e.2
  | none =>
    if names.isEmpty || t.entries.any fun e => names.isPrefixOf e.1 then some .directory else none

/-- The longest name a file can have, in bytes. -/
def longestName : Nat := 255

/-- Follow the pieces of a path from a place in the tree. -/
def follow (t : FileTree) (place : List String) : List String → Except FileError FileNode
  | [] =>
    match t.at? place with
    | some node => .ok node
    | none => .error .missing
  | piece :: pieces =>
    match t.at? place with
    | none => .error .missing
    | some (.file _) => .error .notDirectory
    | some .directory =>
      if piece = "" ∨ piece = "." then t.follow place pieces
      else if piece = ".." then t.follow place.dropLast pieces
      else if longestName < piece.utf8ByteSize then .error .nameTooLong
      else t.follow (place ++ [piece]) pieces

/-- What stands at a path, seen from a directory. -/
def node (t : FileTree) (directory : List String) (path : String) : Except FileError FileNode :=
  if path.toList.contains '\x00' then .error .nulInName
  else if path.isEmpty then .error .missing
  else t.follow (if Path.isAbsolute path then [] else directory) (Text.splitOnChar '/' path)

/-- The file system of a tree, seen from a directory. -/
def system (t : FileTree) (directory : List String) : FileSystem := ⟨t.node directory⟩

/-- Add a file or a directory at a path below a directory. -/
def add (t : FileTree) (directory : List String) (path : String) (node : FileNode) : FileTree :=
  ⟨(directory ++ (Text.splitOnChar '/' path).filter Path.counts, node) :: t.entries⟩

end FileTree

end ModuleLoader
