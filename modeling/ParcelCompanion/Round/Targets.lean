import ParcelCompanion.Companion.Basic
import ParcelCompanion.Model.CanonicalName

/-!
# Targets

The targets of a round and their companions, in the order in which the targets were first asked
for.  Asking for a target again gives its companion as it is by then.
-/

namespace ParcelCompanion

/-- The companions of a round, and the position of each by the number of its target. -/
structure Targets where
  companions : Array Companion := #[]
  positions : Std.TreeMap Nat Nat := ∅

namespace Targets

/-- The strategy for a target: whether it is a subtype of the serializable interface. -/
def strategyFor (m : Model) (settings : Settings) (target : Declaration) : Strategy :=
  if m.isSubtype target.selfType settings.serializable then .injector else .delegate

/-- The companion of a target, if it was asked for. -/
def get? (targets : Targets) (id : DeclId) : Option Companion := do
  targets.companions[← targets.positions[id.index]?]?

/-- Makes sure that a target has a companion, and tells whether it is new. -/
def request (m : Model) (settings : Settings) (targets : Targets) (id : DeclId) :
    Except ModelError (Bool × Companion × Targets) :=
  match targets.get? id with
  | some companion => .ok (false, companion, targets)
  | none => do
    let target ← m.declaration id
    let companion := Companion.ofTarget id target (strategyFor m settings target) settings
    return (true, companion, {
      companions := targets.companions.push companion
      positions := targets.positions.insert id.index targets.companions.size })

/-- Adds a field to the companion of a target that was asked for. -/
def addField (targets : Targets) (id : DeclId) (field : Binding) : Targets :=
  match targets.positions[id.index]? with
  | some position =>
    { targets with
      companions := targets.companions.modify position fun companion => companion.addField field }
  | none => targets

end Targets

end ParcelCompanion
