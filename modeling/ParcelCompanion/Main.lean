import ParcelCompanion.Command.Run

/-!
# The tool

The commands run on the file system of the machine.  What they say goes to standard output and
standard error, and the tool ends with their exit code.
-/

namespace ParcelCompanion.Machine

/-- The fault that stands for an error of the machine. -/
def faultOf : IO.Error → OutputFault
  | .noFileOrDirectory .. => .file .notFound
  | .alreadyExists .. => .file .alreadyExists
  | .inappropriateType _ 20 _ => .file .notADirectory
  | .inappropriateType _ 21 _ => .file .isADirectory
  | error => .other (toString error)

/-- An action whose errors are faults. -/
def attempt {α : Type} (action : IO α) : ExceptT OutputFault BaseIO α :=
  ExceptT.mk do
    match ← action.toBaseIO with
    | .ok value => return .ok value
    | .error error => return .error (faultOf error)

/-- What an action gives, unless it fails. -/
def success? {α : Type} (action : IO α) : BaseIO (Option α) := do
  match ← action.toBaseIO with
  | .ok value => return some value
  | .error _ => return none

/-- The file system.  A path leads to a directory when the dot in it can be opened. -/
def files : FileSystem BaseIO IO.FS.Handle where
  isFile path := return (← success? (IO.FS.readBinFile path)).isSome
  isDirectory path := return (← success? (IO.FS.Handle.mk (Path.join path ".") .read)).isSome
  readText path := success? (IO.FS.readFile path)
  createDirectory path := attempt (IO.FS.createDir path)
  createFile path := attempt (IO.FS.Handle.mk path .write)
  write opened bytes := do
    attempt (opened.write bytes)
    return opened
  close opened := attempt opened.flush

/-- The place that the tool runs in. -/
def environment : BaseIO Environment :=
  return {
    directory := (← success? IO.currentDir).map toString
    refusesColors := (← IO.getEnv "NO_COLOR").isSome
    terminal := ← IO.getEnv "TERM" }

end ParcelCompanion.Machine

open ParcelCompanion in
/-- Does what the command line asks for. -/
def main (words : List String) : IO UInt32 := do
  let action : BaseIO Outcome := do
    Command.runWords Machine.files (← Machine.environment) words
  let outcome ← action
  IO.print outcome.output
  IO.eprint outcome.errors
  return outcome.exitCode.toUInt32
