import ParcelCompanion.Model.CanonicalName

/-!
# The supertypes of a type

The supertypes of a type as a tree, listed from the top: each type is followed by all that is
above it, first through its superclass and then through its interfaces.  A type that can be
reached in several ways is listed once for each of them.
-/

namespace ParcelCompanion

/-- How a type comes by a direct supertype. -/
inductive Relation where
  | extends | implements
  deriving DecidableEq, Repr

/-- The word for a relation. -/
def Relation.word : Relation → String
  | .extends => "extends"
  | .implements => "implements"

/-- A type in the list of supertypes of another. -/
structure Ancestor where
  /-- The number of steps that lead to it. -/
  depth : Nat
  /-- The last of these steps. -/
  relation : Option Relation
  type : TypeId
  /-- Its canonical name. -/
  name : String
  deriving DecidableEq, Repr

namespace Model

/-- How the declarations of a kind come by their interfaces. -/
def interfaceRelation (kind : DeclKind) : Relation :=
  if kind = .interfaceType then .extends else .implements

/-- The direct supertypes of a declaration, with the relation to each. -/
def supertypeRelations (declaration : Declaration) : List (Relation × TypeId) :=
  declaration.superclass.toList.map (Relation.extends, ·)
    ++ declaration.interfaces.map (interfaceRelation declaration.kind, ·)

/-- The type and its supertypes, fewer than `height` steps up, where `depth` steps led to it and
the last of them was `relation`. -/
def ancestryWithin (m : Model) (height depth : Nat) (relation : Option Relation) (id : TypeId) :
    Except ModelError (List Ancestor) :=
  match height with
  | 0 => .error (.cyclicHierarchy [])
  | height + 1 => do
    let name ← m.canonicalName id
    let above ← match (← m.type id).declaration? with
      | none => pure []
      | some decl =>
        (supertypeRelations (← m.declaration decl)).mapM fun (relation, supertype) =>
          m.ancestryWithin height (depth + 1) (some relation) supertype
    return { depth, relation, type := id, name } :: above.flatten

/-- The type and its supertypes.  As with subtypes, no chain of supertypes in a finished model is
longer than there are declarations. -/
def ancestry (m : Model) (id : TypeId) : Except ModelError (List Ancestor) :=
  m.ancestryWithin (m.declarations.size + 1) 0 none id

end Model

end ParcelCompanion
