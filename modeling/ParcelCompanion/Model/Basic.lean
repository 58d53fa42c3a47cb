import ParcelCompanion.Model.Declaration
import ParcelCompanion.Model.Error

/-!
# Models

A model holds the declarations of a compilation, their fields, and all types that are spoken of.
Each of the three is numbered in the order of its registration, and numbers are never reused.
Types are interned: `typeIds` takes a type back to its number, so that equal types have equal
numbers.  `declarationIds` does the same for qualified names.

Every model starts from the platform classes, of which the first is the root class.
-/

namespace ParcelCompanion

/-- Declarations, their fields, and interned types. -/
structure Model where
  /-- The types by number. -/
  types : Array TypeTerm := #[]
  /-- The numbers of the types. -/
  typeIds : Std.TreeMap TypeTerm TypeId := ∅
  /-- The declarations by number. -/
  declarations : Array Declaration := #[]
  /-- The numbers of the declarations, by qualified name. -/
  declarationIds : Std.TreeMap String DeclId := ∅
  /-- The fields by number. -/
  elements : Array Field := #[]

namespace Model

/-! ### Questions -/

/-- The type with the given number. -/
def type? (m : Model) (id : TypeId) : Option TypeTerm :=
  m.types[id.index]?

/-- The type with the given number, which must exist. -/
def type (m : Model) (id : TypeId) : Except ModelError TypeTerm :=
  match m.type? id with
  | some term => .ok term
  | none => .error (.unknownType id)

/-- The declaration with the given number. -/
def declaration? (m : Model) (id : DeclId) : Option Declaration :=
  m.declarations[id.index]?

/-- The declaration with the given number, which must exist. -/
def declaration (m : Model) (id : DeclId) : Except ModelError Declaration :=
  match m.declaration? id with
  | some declaration => .ok declaration
  | none => .error (.unknownDeclaration id)

/-- The field with the given number, which must exist. -/
def element (m : Model) (id : ElementId) : Except ModelError Field :=
  match m.elements[id.index]? with
  | some field => .ok field
  | none => .error (.unknownElement id)

/-- The declaration with the given qualified name. -/
def lookup (m : Model) (name : String) : Option DeclId :=
  m.declarationIds[name]?

/-- The root class, which is the first declaration of every model. -/
def object : DeclId := ⟨0⟩

/-- The elements whose field has a property, in order. -/
def elementsWhere (m : Model) (property : Field → Bool) : List ElementId :=
  m.elements.toList.zipIdx.filterMap fun (field, index) =>
    if property field then some ⟨index⟩ else none

/-- The elements that carry an annotation, in order. -/
def annotatedWith (m : Model) (marker : String) : List ElementId :=
  m.elementsWhere fun field => field.annotations.contains marker

/-- The elements that a declaration encloses, in order. -/
def fieldsOf (m : Model) (decl : DeclId) : List ElementId :=
  m.elementsWhere fun field => field.enclosing == decl

/-- The type parameter at a position in the parameter list of a declaration. -/
def typeParameter (m : Model) (owner : DeclId) (index : Nat) :
    Except ModelError TypeParameter := do
  let declaration ← m.declaration owner
  match declaration.parameters[index]? with
  | some parameter => return parameter
  | none => throw (.invalidTypeParameter declaration.name index)

/-- The upper bound of a type parameter: its first bound, or else the root class. -/
def upperBound (m : Model) (owner : DeclId) (index : Nat) : Except ModelError TypeId := do
  let parameter ← m.typeParameter owner index
  match parameter.bounds.head? with
  | some bound => return bound
  | none => return (← m.declaration object).selfType

/-- A type with a type parameter replaced by its upper bound.  The bound is taken as it is, even
when it is a type parameter itself. -/
def boundOfType (m : Model) (id : TypeId) : Except ModelError TypeId := do
  match ← m.type id with
  | .parameter owner index => m.upperBound owner index
  | _ => return id

/-- The type of a field, with a type parameter replaced by its upper bound. -/
def boundOfElement (m : Model) (id : ElementId) : Except ModelError TypeId := do
  m.boundOfType (← m.element id).type

/-- A declaration applied to its own type parameters. -/
def selfType (m : Model) (decl : DeclId) : Except ModelError TypeId :=
  return (← m.declaration decl).selfType

/-! ### Registration -/

/-- The number of a type, under which it is stored from now on if it was not yet. -/
def intern (m : Model) (term : TypeTerm) : TypeId × Model :=
  match m.typeIds[term]? with
  | some id => (id, m)
  | none =>
    let id : TypeId := ⟨m.types.size⟩
    (id, { m with types := m.types.push term, typeIds := m.typeIds.insert term id })

/-- The numbers of several types, stored in order. -/
def internAll (m : Model) : List TypeTerm → List TypeId × Model
  | [] => ([], m)
  | term :: terms =>
    let (id, m) := m.intern term
    let (ids, m) := m.internAll terms
    (id :: ids, m)

/-- Registers a declaration without supertypes, and its own type. -/
def insertDeclaration (m : Model) (name package : String) (kind : DeclKind)
    (modifiers : Modifiers) (parameters : List String) : DeclId × Model :=
  let id : DeclId := ⟨m.declarations.size⟩
  let (args, m) := m.internAll ((List.range parameters.length).map (.parameter id))
  let (selfType, m) := m.intern (.declared id args)
  let declaration : Declaration := {
    name, package, kind, modifiers, selfType
    parameters := parameters.map fun name => { name, bounds := [] }
    superclass := none
    interfaces := [] }
  (id, { m with
    declarations := m.declarations.push declaration
    declarationIds := m.declarationIds.insert name id })

/-- Registers a field. -/
def insertElement (m : Model) (field : Field) : ElementId × Model :=
  (⟨m.elements.size⟩, { m with elements := m.elements.push field })

/-- Changes the declaration with the given number, if there is one. -/
def modifyDeclaration (m : Model) (id : DeclId) (change : Declaration → Declaration) : Model :=
  { m with declarations := m.declarations.modify id.index change }

/-! ### The platform -/

/-- The qualified name of the root class. -/
def objectName : String := "java.lang.Object"

/-- The platform classes other than the root class, each with the name of its superclass.  A
superclass comes before its subclasses. -/
def platformClasses : List (String × String) := [
  ("java.lang.String", objectName),
  ("java.lang.Number", objectName),
  ("java.lang.Boolean", objectName),
  ("java.lang.Character", objectName),
  ("java.lang.Byte", "java.lang.Number"),
  ("java.lang.Short", "java.lang.Number"),
  ("java.lang.Integer", "java.lang.Number"),
  ("java.lang.Long", "java.lang.Number"),
  ("java.lang.Float", "java.lang.Number"),
  ("java.lang.Double", "java.lang.Number")]

/-- The modifiers of a platform class: all are public, `Number` is abstract, and the others but
the root class are final. -/
def platformModifiers (name : String) : Modifiers :=
  if name = objectName then .onlyPublic
  else if name = "java.lang.Number" then Modifiers.onlyPublic.insert .abstract
  else Modifiers.onlyPublic.insert .final

/-- Registers a platform class. -/
def insertPlatformClass (m : Model) (name : String) (superclass : Option TypeId) : Model :=
  let package := (Dotted.outer? name).getD ""
  let (id, m) := m.insertDeclaration name package .classType (platformModifiers name) []
  m.modifyDeclaration id fun declaration => { declaration with superclass }

/-- The model that holds the platform classes only. -/
def platform : Model :=
  platformClasses.foldl
    (fun m (name, superclass) =>
      let parent := do
        let id ← m.lookup superclass
        let declaration ← m.declaration? id
        return declaration.selfType
      m.insertPlatformClass name parent)
    (insertPlatformClass {} objectName none)

end Model

end ParcelCompanion
