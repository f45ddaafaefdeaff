/-!
# A file system to read from

What a path names, or why it names nothing.  A file system is the answer to that question for
every path at once, so that everything that reads files is a function of one.
-/

set_option autoImplicit false

namespace ModuleLoader

/-- Whether a file error means that nothing exists at the path. -/
inductive FileErrorKind where
  | missing
  | other
deriving DecidableEq, Repr

/-- Why a file could not be read, in the words of the operating system. -/
structure FileError where
  kind : FileErrorKind
  text : String
deriving DecidableEq, Repr

namespace FileError

/-- There is no such file. -/
def missing : FileError := ⟨.missing, "No such file or directory (os error 2)"⟩

/-- A directory is read as a file. -/
def isDirectory : FileError := ⟨.other, "Is a directory (os error 21)"⟩

/-- The path runs through something that is no directory. -/
def notDirectory : FileError := ⟨.other, "Not a directory (os error 20)"⟩

/-- A file does not hold text. -/
def notText : FileError := ⟨.other, "stream did not contain valid UTF-8"⟩

/-- A path holds a character that no file name can hold. -/
def nulInName : FileError := ⟨.other, "file name contained an unexpected NUL byte"⟩

/-- A component of a path is longer than any file name. -/
def nameTooLong : FileError := ⟨.other, "File name too long (os error 36)"⟩

end FileError

/-- What a path can name; a file whose bytes are not text has no text. -/
inductive FileNode where
  | directory
  | file (text : Option String)
deriving DecidableEq, Repr

/-- What every path names. -/
structure FileSystem where
  node : String → Except FileError FileNode

namespace FileSystem

/-- The text of a file. -/
def read (fs : FileSystem) (path : String) : Except FileError String :=
  match fs.node path with
  | .error e => .error e
  | .ok .directory => .error .isDirectory
  | .ok (.file none) => .error .notText
  | .ok (.file (some text)) => .ok text

/-- Whether there is something at a path. -/
def exists? (fs : FileSystem) (path : String) : Bool := (fs.node path).isOk

/-- The system without files. -/
def empty : FileSystem := ⟨fun _ => .error .missing⟩

end FileSystem

end ModuleLoader
