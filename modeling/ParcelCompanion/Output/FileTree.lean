import Std.Data.TreeMap
import ParcelCompanion.Output.FileSystem

/-!
# File trees

A file tree is a plain value that implements a file system, with directories, files and nothing
else.

A location is a list of entry names from the root, and a path leads to one from the current
directory.  Paths are followed component by component, so `a/../b` needs the directory `a`.
-/

namespace ParcelCompanion

/-- A place in a file tree, from the root. -/
abbrev Location := List String

/-- What is at a location. -/
inductive FileNode where
  | directory
  | file (contents : ByteArray)

/-- A tree of directories and files. -/
structure FileTree where
  /-- What is at each location but the root, which is a directory. -/
  nodes : Std.TreeMap Location FileNode := ∅
  /-- The current directory. -/
  current : Location := []

namespace FileTree

/-- What is at a location. -/
def node? (tree : FileTree) (location : Location) : Option FileNode :=
  if location.isEmpty then some .directory else tree.nodes[location]?

/-- Puts something at a location. -/
def put (tree : FileTree) (location : Location) (node : FileNode) : FileTree :=
  { tree with nodes := tree.nodes.insert location node }

/-! ### Following paths -/

/-- The most bytes that the name of an entry may have. -/
def maxNameBytes : Nat := 255

/-- The components of a path that matter: a single dot means the directory it is in. -/
def steps (path : String) : List String :=
  (Path.components path).filter (· != ".")

/-- Where a path starts. -/
def start (tree : FileTree) (path : String) : Location :=
  if Path.isAbsolute path then [] else tree.current

/-- Fails unless a directory is at the location. -/
def enter (tree : FileTree) (location : Location) : Except FileFault Unit :=
  match tree.node? location with
  | some .directory => .ok ()
  | some (.file _) => .error .notADirectory
  | none => .error .notFound

/-- The location of an entry of a directory. -/
def entry (tree : FileTree) (location : Location) (name : String) :
    Except FileFault Location := do
  tree.enter location
  if name = ".." then return location.dropLast
  if maxNameBytes < name.utf8ByteSize then throw .nameTooLong
  return location ++ [name]

/-- The existing location to which components lead. -/
def follow (tree : FileTree) (location : Location) : List String → Except FileFault Location
  | [] => .ok location
  | name :: names => do
    let next ← tree.entry location name
    if (tree.node? next).isNone then throw .notFound
    tree.follow next names

/-- The location to which components lead, of which the last need not exist. -/
def target (tree : FileTree) (location : Location) : List String → Except FileFault Location
  | [] => .ok location
  | [name] => tree.entry location name
  | name :: names => do
    let next ← tree.entry location name
    if (tree.node? next).isNone then throw .notFound
    tree.target next names

/-- What a path leads to. -/
def nodeAt? (tree : FileTree) (path : String) : Option FileNode :=
  match tree.follow (tree.start path) (steps path) with
  | .ok location => tree.node? location
  | .error _ => none

/-- The contents of the file that a path leads to.  A path that asks for a directory, by a slash
or a dot for its last component, leads to no file. -/
def contents? (tree : FileTree) (path : String) : Option ByteArray :=
  let last := (path.toList.splitOn '/').getLast?
  match tree.nodeAt? path with
  | some (.file contents) => if last = some [] || last = some ['.'] then none else some contents
  | _ => none

/-! ### Writing -/

/-- An operation that may change the tree even when it fails. -/
abbrev Action (α : Type) := ExceptT OutputFault (StateM FileTree) α

/-- Fails with the fault of the file system, if there is one. -/
def attempt {α : Type} (result : Except FileFault α) : Action α :=
  match result with
  | .ok value => return value
  | .error fault => throw (.file fault)

/-- Refuses a path with the character that ends paths. -/
def checkPath (path : String) : Action Unit := do
  if path.toList.contains '\x00' then throw .endedPath

/-- The location to which a path leads, where an entry may be created. -/
def place (path : String) : Action Location := do
  checkPath path
  let tree ← get
  attempt (tree.target (tree.start path) (steps path))

/-- Puts a directory at a path that leads to nothing. -/
def createDirectory (path : String) : Action Unit := do
  let location ← place path
  let tree ← get
  if (tree.node? location).isSome then throw (.file .alreadyExists)
  set (tree.put location .directory)

/-- Puts an empty file at a path. -/
def createFile (path : String) : Action Location := do
  let location ← place path
  let tree ← get
  match tree.node? location with
  | some .directory => throw (.file .isADirectory)
  | _ =>
    set (tree.put location (.file ByteArray.empty))
    return location

/-- Adds bytes to the file at a location. -/
def write (location : Location) (bytes : ByteArray) : Action Location := do
  let tree ← get
  match tree.node? location with
  | some (.file contents) =>
    set (tree.put location (.file (contents ++ bytes)))
    return location
  | _ => throw (.file .notFound)

/-- Whether a path leads to a directory. -/
def isDirectoryAt (tree : FileTree) (path : String) : Bool :=
  match tree.nodeAt? path with
  | some .directory => true
  | _ => false

/-- The operations on file trees. -/
def fileSystem : FileSystem (StateM FileTree) Location where
  isFile path := return ((← get).contents? path).isSome
  readText path := return ((← get).contents? path).bind fun contents =>
    (Utf8.decode contents).toOption
  isDirectory path := return (← get).isDirectoryAt path
  createDirectory := createDirectory
  createFile := createFile
  write := write
  close _ := return

end FileTree

end ParcelCompanion
