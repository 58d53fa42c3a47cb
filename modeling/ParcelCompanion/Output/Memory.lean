import Std.Data.TreeSet
import ParcelCompanion.Output.Sink

/-!
# Units in memory

A store keeps the units that were closed, in the order of closing.  A name is taken from the moment
a unit is created under it, closed or not.
-/

namespace ParcelCompanion

/-- A unit that was closed. -/
structure GeneratedUnit where
  /-- The qualified name of the generated class. -/
  name : String
  /-- The declaration it was generated for. -/
  origin : DeclId
  text : String
  deriving DecidableEq, Repr

/-- The units kept in memory. -/
structure UnitStore where
  /-- The closed units, in order. -/
  units : Array GeneratedUnit := #[]
  /-- The names under which units were created. -/
  taken : Std.TreeSet String := ∅

namespace UnitStore

/-- A unit that is being written. -/
structure Draft where
  name : String
  origin : DeclId
  contents : ByteArray

/-- The first closed unit of a name. -/
def unit? (store : UnitStore) (name : String) : Option GeneratedUnit :=
  store.units.find? fun unit => unit.name == name

/-- Takes a new name for a unit. -/
def create (name : String) (origin : DeclId) : ExceptT OutputFault (StateM UnitStore) Draft := do
  if (← get).taken.contains name then throw (.recreated name)
  modify fun store => { store with taken := store.taken.insert name }
  return { name, origin, contents := ByteArray.empty }

/-- Adds bytes to a unit. -/
def write (draft : Draft) (bytes : ByteArray) : ExceptT OutputFault (StateM UnitStore) Draft :=
  return { draft with contents := draft.contents ++ bytes }

/-- Keeps a unit whose bytes are a text. -/
def close (draft : Draft) : ExceptT OutputFault (StateM UnitStore) Unit := do
  match Utf8.decode draft.contents with
  | .ok text =>
    modify fun store =>
      { store with units := store.units.push ⟨draft.name, draft.origin, text⟩ }
  | .error fault => throw (.notText fault)

/-- The sink into the store. -/
def sink : Sink (StateM UnitStore) Draft := { create, write, close }

end UnitStore

end ParcelCompanion
