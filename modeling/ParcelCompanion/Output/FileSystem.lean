import ParcelCompanion.Output.Sink
import ParcelCompanion.Text.Path

/-!
# File systems

A file system is what paths are read from and written to.  Programs are written against its
operations, which may have effects of any kind.
-/

namespace ParcelCompanion

/-- The operations of a file system, where `file` is the type of files being written. -/
structure FileSystem (m : Type → Type) (file : Type) where
  /-- Whether a path leads to a file. -/
  isFile : String → m Bool
  /-- Whether a path leads to a directory. -/
  isDirectory : String → m Bool
  /-- The text of the file that a path leads to, when there is one and it is a text. -/
  readText : String → m (Option String)
  /-- Creates a directory in one that exists. -/
  createDirectory : String → ExceptT OutputFault m Unit
  /-- Opens an empty file for writing, in place of what was there. -/
  createFile : String → ExceptT OutputFault m file
  /-- Adds bytes to a file. -/
  write : file → ByteArray → ExceptT OutputFault m file
  /-- Finishes a file. -/
  close : file → ExceptT OutputFault m Unit

namespace FileSystem

variable {m : Type → Type} [Monad m] {file : Type}

/-- Creates a directory, unless creating it fails because it exists. -/
def ensureDirectory (files : FileSystem m file) (path : String) :
    ExceptT OutputFault m Unit := ExceptT.mk do
  match ← (files.createDirectory path).run with
  | .ok () => return .ok ()
  | .error fault =>
    if ← files.isDirectory path then return .ok ()
    return .error fault

/-- Creates a directory and those above it, unless they exist.  The ones above are created when
the directory cannot be created without them. -/
def createDirectories (files : FileSystem m file) (path : String) :
    ExceptT OutputFault m Unit := ExceptT.mk do
  if path.isEmpty then return .ok ()
  match ← (files.ensureDirectory path).run with
  | .error (.file .notFound) =>
    match _h : Path.parent? path with
    | none => return .error (.file .notFound)
    | some parent =>
      match ← (files.createDirectories parent).run with
      | .ok () => (files.ensureDirectory path).run
      | .error fault => return .error fault
  | result => return result
termination_by path.length
decreasing_by exact Path.length_lt_of_parent? _h

end FileSystem

end ParcelCompanion
