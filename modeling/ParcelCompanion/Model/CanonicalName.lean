import ParcelCompanion.Model.Basic

/-!
# Canonical names and subtypes

The canonical name of a type spells declarations by their qualified names, type parameters by
their own, and arguments between angle brackets, separated by commas without a space.  Distinct
types may share a canonical name: a type parameter and an unresolved type, for instance.

Whether a type is a subtype of a target is asked by the name of the target.  A type matches a name
when it is its canonical name, or when the type has arguments and the name is its wildcard form,
such as `java.util.Map<?,?>`.  A type is a subtype when it or one of its supertypes matches.
-/

namespace ParcelCompanion.Model

/-! ### Canonical names -/

/-- The canonical name of a type whose components are nested less deeply than `depth`. -/
def nameWithin (m : Model) : Nat → TypeId → Except ModelError String
  | 0, id => .error (.endlessType id)
  | depth + 1, id => do
    match ← m.type id with
    | .primitive kind => return kind.keyword
    | .declared decl args =>
      let name := (← m.declaration decl).name
      if args.isEmpty then return name
      let args ← args.mapM (m.nameWithin depth)
      return name ++ "<" ++ String.intercalate "," args ++ ">"
    | .parameter owner index => return (← m.typeParameter owner index).name
    | .array element => return (← m.nameWithin depth element) ++ "[]"
    | .wildcard (some upper) _ => return "? extends " ++ (← m.nameWithin depth upper)
    | .wildcard none (some lower) => return "? super " ++ (← m.nameWithin depth lower)
    | .wildcard none none => return "?"
    | .unresolved name => return name

/-- The canonical name of a type.  Going down from a type to its components meets each type of the
model at most once, unless some type is a component of itself. -/
def canonicalName (m : Model) (id : TypeId) : Except ModelError String :=
  m.nameWithin (m.types.size + 1) id

/-! ### Subtypes by name -/

/-- The name of a declaration with a wildcard for each of its arguments. -/
def wildcardForm (name : String) (arity : Nat) : String :=
  name ++ "<" ++ String.intercalate "," (List.replicate arity "?") ++ ">"

/-- Whether the type or one of its supertypes, fewer than `height` steps up, matches. -/
def isSubtypeWithin (m : Model) (target : String) : Nat → TypeId → Bool
  | 0, _ => false
  | height + 1, id =>
    match m.canonicalName id with
    | .error _ => false
    | .ok name =>
      name == target ||
      match m.type? id with
      | some (.declared decl args) =>
        match m.declaration? decl with
        | some declaration =>
          (!args.isEmpty && wildcardForm declaration.name args.length == target)
            || declaration.supertypes.any (m.isSubtypeWithin target height)
        | none => false
      | _ => false

/-- Whether a type is a subtype of what the target names.  In a finished model a chain of
supertypes passes each declaration at most once, and ends there or at a type that is none. -/
def isSubtype (m : Model) (id : TypeId) (target : String) : Bool :=
  m.isSubtypeWithin target (m.declarations.size + 1) id

end ParcelCompanion.Model
