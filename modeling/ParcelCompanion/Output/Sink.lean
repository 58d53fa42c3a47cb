import ParcelCompanion.Model.TypeTerm
import ParcelCompanion.Text.Utf8

/-!
# Sinks

Generated text leaves a round through a sink.  A sink creates a unit under the qualified name of a
generated class, takes its bytes, and closes it.  A unit that is not closed is dropped.  Sinks may
have effects of any kind, which the monad stands for.
-/

namespace ParcelCompanion

/-! ### Faults -/

/-- Why a file system refuses. -/
inductive FileFault where
  | notFound
  | alreadyExists
  | notADirectory
  | isADirectory
  | nameTooLong
  deriving DecidableEq, Repr

/-- The wording of a fault, with its number. -/
def FileFault.message : FileFault → String
  | .notFound => "No such file or directory (os error 2)"
  | .alreadyExists => "File exists (os error 17)"
  | .notADirectory => "Not a directory (os error 20)"
  | .isADirectory => "Is a directory (os error 21)"
  | .nameTooLong => "File name too long (os error 36)"

/-- Why a sink refuses. -/
inductive OutputFault where
  /-- A unit of this name was created before. -/
  | recreated (name : String)
  /-- The bytes of the unit are no text. -/
  | notText (fault : Utf8.Fault)
  /-- A path holds the character that ends paths. -/
  | endedPath
  /-- The file system refuses. -/
  | file (fault : FileFault)
  /-- Something else is in the way, with this wording. -/
  | other (message : String)
  deriving DecidableEq, Repr

/-- The wording of a fault. -/
def OutputFault.message : OutputFault → String
  | .recreated name => "Attempt to recreate a file for type " ++ name
  | .notText fault => fault.message
  | .endedPath => "file name contained an unexpected NUL byte"
  | .file fault => fault.message
  | .other message => message

/-! ### Sinks -/

/-- A destination for generated units, where `unit` is the type of units being written. -/
structure Sink (m : Type → Type) (unit : Type) where
  /-- Opens a unit under a name for the declaration it was generated for. -/
  create : String → DeclId → ExceptT OutputFault m unit
  /-- Adds bytes to a unit. -/
  write : unit → ByteArray → ExceptT OutputFault m unit
  /-- Finishes a unit. -/
  close : unit → ExceptT OutputFault m Unit

/-- Creates a unit with the given text and closes it. -/
def Sink.put {m : Type → Type} [Monad m] {unit : Type} (sink : Sink m unit) (name : String)
    (origin : DeclId) (text : String) : ExceptT OutputFault m Unit := do
  let opened ← sink.create name origin
  let written ← sink.write opened text.toUTF8
  sink.close written

end ParcelCompanion
