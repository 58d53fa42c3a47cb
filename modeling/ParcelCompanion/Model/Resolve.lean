import ParcelCompanion.Model.Edit

/-!
# Resolving written types

What a name means depends on the declaration that it is written in, its context.  The context and
the declarations around it are its scopes, innermost first.  A name without arguments may be a
primitive type, or a type parameter of the innermost scope that has one of that name.  Every other
name is that of a declaration, which is sought as a member of each scope, then by its qualified
name, then in the package of the context, and last in `java.lang`.  A name that none of these
knows becomes an unresolved type that keeps the text.
-/

namespace ParcelCompanion

namespace Dotted

/-- What precedes each dot of a character sequence, the longest first. -/
def fronts : List Char → List (List Char)
  | [] => []
  | c :: cs => (fronts cs).map (c :: ·) ++ if c = '.' then [[]] else []

/-- The names around a qualified name, the innermost first. -/
def surrounding (name : String) : List String :=
  (fronts name.toList).map String.ofList

end Dotted

namespace Model

/-! ### Scopes -/

/-- The declarations that are scopes in a context: the context, then those of the declarations
around it whose names are longer than its package. -/
def scopes (m : Model) (context : DeclId) : Except ModelError (List DeclId) := do
  let declaration ← m.declaration context
  let around := (Dotted.surrounding declaration.name).takeWhile fun outer =>
    declaration.package.utf8ByteSize < outer.utf8ByteSize
  return context :: around.filterMap m.lookup

/-- The type parameter that a name means in a context: its owner and position. -/
def findParameter (m : Model) (context : DeclId) (name : String) :
    Except ModelError (Option (DeclId × Nat)) := do
  let scopes ← m.scopes context
  return scopes.findSome? fun scope => do
    let declaration ← m.declaration? scope
    let index ← declaration.parameters.findIdx? fun parameter => parameter.name == name
    return (scope, index)

/-- The qualified names under which a declaration is sought in a context, the preferred first. -/
def candidates (m : Model) (context : DeclId) (name : String) :
    Except ModelError (List String) := do
  let package := (← m.declaration context).package
  let scopes ← m.scopes context
  let members := scopes.filterMap fun scope =>
    (m.declaration? scope).map fun declaration => Dotted.member declaration.name name
  let neighbour := if package.isEmpty then [] else [Dotted.member package name]
  return members ++ [name] ++ neighbour ++ [Dotted.member "java.lang" name]

/-- The declaration that a name means in a context. -/
def findDeclaration (m : Model) (context : DeclId) (name : String) :
    Except ModelError (Option DeclId) :=
  return (← m.candidates context name).findSome? m.lookup

end Model

namespace Edit

/-! ### Resolution -/

/-- The type that a name without arguments means before any declaration is considered. -/
def resolveWord (context : DeclId) (name : String) : Edit (Option TypeId) :=
  match Primitive.ofKeyword? name with
  | some kind => some <$> primitive kind
  | none => do
    match ← (← get).findParameter context name with
    | some (owner, index) => some <$> parameter owner index
    | none => return none

mutual

/-- The type that a written type means in a context. -/
def resolve (context : DeclId) : WrittenType → Edit TypeId
  | .named name args => do
    match ← if args.isEmpty then resolveWord context name else pure none with
    | some id => return id
    | none =>
      match ← (← get).findDeclaration context name with
      | none => unresolved (WrittenType.named name args).text
      | some decl =>
        let declaration ← (← get).declaration decl
        let expected := declaration.parameters.length
        if !args.isEmpty && args.length != expected then
          throw (.invalidArgumentCount declaration.name expected args.length)
        declared decl (← resolveAll context args)
  | .array element => do array (← resolve context element)
  | .wildcard => wildcard none none
  | .bounded .upper bound => do wildcard (some (← resolve context bound)) none
  | .bounded .lower bound => do wildcard none (some (← resolve context bound))

/-- The types that several written types mean in a context. -/
def resolveAll (context : DeclId) : List WrittenType → Edit (List TypeId)
  | [] => return []
  | type :: types => do
    let id ← resolve context type
    let ids ← resolveAll context types
    return id :: ids

end

/-- The type that a text means in a context. -/
def resolveText (context : DeclId) (text : String) : Edit TypeId :=
  match WrittenType.parse text with
  | .ok type => resolve context type
  | .error fault => throw (.malformedType text fault)

end Edit

end ParcelCompanion
