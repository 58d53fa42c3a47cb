import ParcelCompanion.Model.Declaration
import ParcelCompanion.Settings.Basic

/-!
# Companions

A companion is the class to be generated for a target, a class with annotated fields.  An injector
goes with a target that marshals itself, and a delegate with one that does not.  The companion
lives in the package of its target, and its name is that of the target within the package, with
dollar signs for dots, and the suffix of its strategy.
-/

namespace ParcelCompanion

/-- How a companion works together with its target. -/
inductive Strategy where
  /-- The target marshals itself and calls the companion. -/
  | injector
  /-- The companion works from outside. -/
  | delegate
  deriving DecidableEq, Repr

namespace Strategy

/-- The word for a strategy. -/
def name : Strategy → String
  | .injector => "injector"
  | .delegate => "delegate"

/-- The suffix for a strategy. -/
def suffix (settings : Settings) : Strategy → String
  | .injector => settings.injectorSuffix
  | .delegate => settings.delegateSuffix

end Strategy

/-- A field that a companion marshals. -/
structure Binding where
  name : String
  /-- The canonical name of its type. -/
  type : String
  deriving DecidableEq, Repr

/-- A class to be generated. -/
structure Companion where
  package : String
  className : String
  /-- The qualified name of the target. -/
  target : String
  /-- The declaration that is the target. -/
  origin : DeclId
  strategy : Strategy
  /-- The fields in the order of their discovery, repetitions included. -/
  fields : List Binding
  deriving DecidableEq, Repr

namespace Companion

/-- A qualified name within its package as one identifier. -/
def flatten (name : String) : String :=
  String.ofList (name.toList.map fun c => if c = '.' then '$' else c)

/-- The name of the companion class for a target. -/
def classNameFor (package target suffix : String) : String :=
  flatten (relativeName package target) ++ suffix

/-- The companion of a target, without fields. -/
def ofTarget (origin : DeclId) (target : Declaration) (strategy : Strategy)
    (settings : Settings) : Companion where
  package := target.package
  className := classNameFor target.package target.name (strategy.suffix settings)
  target := target.name
  origin
  strategy
  fields := []

/-- Adds a field after the others. -/
def addField (companion : Companion) (field : Binding) : Companion :=
  { companion with fields := companion.fields ++ [field] }

/-- The qualified name of the companion class. -/
def fullName (companion : Companion) : String :=
  if companion.package.isEmpty then companion.className
  else Dotted.member companion.package companion.className

end Companion

end ParcelCompanion
