import Std.Data.TreeSet
import ParcelCompanion.Output.FileTree
import ParcelCompanion.Text.Dotted

/-!
# Units in a directory

A unit is written to a file below a root directory: each segment of its package is a directory, and
the file is called after the class.  Empty segments are passed over.  A name is taken once its file
was opened.
-/

namespace ParcelCompanion

/-- What has been written to a directory. -/
structure DirectoryLog where
  /-- The names whose files were opened. -/
  taken : Std.TreeSet String := ∅
  /-- The paths of those files, in order. -/
  written : Array String := #[]

namespace DirectoryLog

/-- The path of the file for a qualified class name. -/
def pathFor (root name : String) : String :=
  let package := (Dotted.outer? name).getD ""
  let segments := (Dotted.segments package).filter fun segment => !segment.isEmpty
  Path.join (segments.foldl Path.join root) (Dotted.simple name ++ ".java")

variable {m : Type → Type} [Monad m] {file : Type}

/-- An operation of the file system, which does not concern the log. -/
def onFiles {α : Type} (action : ExceptT OutputFault m α) :
    ExceptT OutputFault (StateT DirectoryLog m) α :=
  ExceptT.mk (monadLift action.run)

/-- Opens the file for a name that is not taken. -/
def create (files : FileSystem m file) (root name : String) :
    ExceptT OutputFault (StateT DirectoryLog m) file := do
  if (← get).taken.contains name then throw (.recreated name)
  let path := pathFor root name
  (Path.parent? path).forM fun parent => onFiles (files.createDirectories parent)
  let opened ← onFiles (files.createFile path)
  modify fun log =>
    { log with taken := log.taken.insert name, written := log.written.push path }
  return opened

/-- The sink into the directory `root`. -/
def sink (files : FileSystem m file) (root : String) :
    Sink (StateT DirectoryLog m) file where
  create name _ := create files root name
  write opened bytes := onFiles (files.write opened bytes)
  close opened := onFiles (files.close opened)

end DirectoryLog

end ParcelCompanion
