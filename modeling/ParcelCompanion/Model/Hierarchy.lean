import Std.Data.TreeSet
import ParcelCompanion.Model.Edit

/-!
# Finishing a model

A model is finished when every class and enum has a superclass, for which the root class stands
in, and no declaration is its own supertype.  From then on every walk up the hierarchy ends.
-/

namespace ParcelCompanion.Model

/-! ### Implicit superclasses -/

/-- Whether a declaration extends the root class unless it says otherwise. -/
def impliesSuperclass (id : DeclId) (declaration : Declaration) : Bool :=
  id != object && declaration.superclass.isNone
    && (declaration.kind == .classType || declaration.kind == .enumType)

/-- Makes the root class the superclass of every class and enum without one. -/
def withImplicitSuperclasses (m : Model) (root : TypeId) : Model :=
  { m with
    declarations := m.declarations.mapIdx fun index declaration =>
      if impliesSuperclass ⟨index⟩ declaration then { declaration with superclass := some root }
      else declaration }

/-! ### Cycles -/

/-- The names along a path from a declaration back to itself.  The path is given from its end. -/
def cycleNames (m : Model) (path : List DeclId) (id : DeclId) : Except ModelError (List String) :=
  let between := (path.takeWhile (· != id)).reverse
  (id :: between ++ [id]).mapM fun step => return (← m.declaration step).name

/-- Walks up from a declaration, superclass before interfaces, and fails at the first one that
comes again on its own path.  The path leads to the declaration and is given from its end; `done`
holds the declarations from which all is known to be well.  A path has fewer than `depth` steps to
go, since it cannot be longer than there are declarations without coming back to one. -/
def walkUp (m : Model) (depth : Nat) (path : List DeclId) (id : DeclId)
    (done : Std.TreeSet Nat) : Except ModelError (Std.TreeSet Nat) :=
  match depth with
  | 0 => do throw (.cyclicHierarchy (← m.cycleNames path id))
  | depth + 1 => do
    let declaration ← m.declaration id
    if done.contains id.index then return done
    if path.contains id then throw (.cyclicHierarchy (← m.cycleNames path id))
    let done ← declaration.supertypes.foldlM
      (fun done supertype => do
        match (← m.type supertype).declaration? with
        | some next => m.walkUp depth (id :: path) next done
        | none => return done)
      done
    return done.insert id.index

/-- Fails when a declaration is its own supertype. -/
def checkAcyclic (m : Model) : Except ModelError Unit := do
  let _ ← (List.range m.declarations.size).foldlM
    (fun done index => m.walkUp (m.declarations.size + 1) [] ⟨index⟩ done) ∅

/-- The finished model. -/
def finish (m : Model) : Except ModelError Model := do
  let root ← m.declaration object
  let m := m.withImplicitSuperclasses root.selfType
  m.checkAcyclic
  return m

end ParcelCompanion.Model
