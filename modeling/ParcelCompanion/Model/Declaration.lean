import ParcelCompanion.Model.TypeTerm
import ParcelCompanion.Text.Dotted

/-!
# Declarations and their fields

A declaration is a class, interface, enum or annotation with a qualified name, and a field is an
element that it encloses.
-/

namespace ParcelCompanion

/-! ### Kinds and modifiers -/

/-- What a declaration declares. -/
inductive DeclKind where
  | classType | interfaceType | enumType | annotationType
  deriving DecidableEq, Repr

namespace DeclKind

/-- All kinds of declarations. -/
def all : List DeclKind := [.classType, .interfaceType, .enumType, .annotationType]

/-- The word for a kind. -/
def name : DeclKind → String
  | .classType => "class"
  | .interfaceType => "interface"
  | .enumType => "enum"
  | .annotationType => "annotation"

/-- The kind with the given word. -/
def ofName? (word : String) : Option DeclKind :=
  all.find? fun kind => kind.name == word

end DeclKind

/-- A modifier of a declaration or field. -/
inductive Modifier where
  | publicAccess | protectedAccess | privateAccess
  | static | final | abstract | transient | volatile
  deriving DecidableEq, Repr

namespace Modifier

/-- All modifiers, in the order in which they are listed. -/
def all : List Modifier :=
  [.publicAccess, .protectedAccess, .privateAccess,
    .static, .final, .abstract, .transient, .volatile]

/-- The word for a modifier. -/
def name : Modifier → String
  | .publicAccess => "public"
  | .protectedAccess => "protected"
  | .privateAccess => "private"
  | .static => "static"
  | .final => "final"
  | .abstract => "abstract"
  | .transient => "transient"
  | .volatile => "volatile"

/-- The modifier with the given word. -/
def ofName? (word : String) : Option Modifier :=
  all.find? fun modifier => modifier.name == word

end Modifier

/-- A set of modifiers. -/
structure Modifiers where
  isPublic : Bool := false
  isProtected : Bool := false
  isPrivate : Bool := false
  isStatic : Bool := false
  isFinal : Bool := false
  isAbstract : Bool := false
  isTransient : Bool := false
  isVolatile : Bool := false
  deriving DecidableEq, Repr

namespace Modifiers

/-- No modifier. -/
def none : Modifiers := {}

/-- Adds a modifier. -/
def insert (modifiers : Modifiers) : Modifier → Modifiers
  | .publicAccess => { modifiers with isPublic := true }
  | .protectedAccess => { modifiers with isProtected := true }
  | .privateAccess => { modifiers with isPrivate := true }
  | .static => { modifiers with isStatic := true }
  | .final => { modifiers with isFinal := true }
  | .abstract => { modifiers with isAbstract := true }
  | .transient => { modifiers with isTransient := true }
  | .volatile => { modifiers with isVolatile := true }

/-- Whether a modifier is in the set. -/
def contains (modifiers : Modifiers) : Modifier → Bool
  | .publicAccess => modifiers.isPublic
  | .protectedAccess => modifiers.isProtected
  | .privateAccess => modifiers.isPrivate
  | .static => modifiers.isStatic
  | .final => modifiers.isFinal
  | .abstract => modifiers.isAbstract
  | .transient => modifiers.isTransient
  | .volatile => modifiers.isVolatile

/-- The set of the listed modifiers. -/
def ofList (list : List Modifier) : Modifiers :=
  list.foldl insert none

/-- The modifiers of the set, each once. -/
def toList (modifiers : Modifiers) : List Modifier :=
  Modifier.all.filter modifiers.contains

/-- Only `public`. -/
def onlyPublic : Modifiers := none.insert .publicAccess

/-- Inserting a modifier adds it and nothing else. -/
theorem contains_insert (modifiers : Modifiers) (added modifier : Modifier) :
    (modifiers.insert added).contains modifier
      = (decide (modifier = added) || modifiers.contains modifier) := by
  cases added <;> cases modifier <;> simp [insert, contains]

end Modifiers

/-! ### Declarations -/

/-- A type parameter with its bounds. -/
structure TypeParameter where
  name : String
  bounds : List TypeId
  deriving DecidableEq, Repr

/-- A class-like declaration. -/
structure Declaration where
  /-- The qualified name. -/
  name : String
  /-- The package, empty for the default package. -/
  package : String
  kind : DeclKind
  modifiers : Modifiers
  parameters : List TypeParameter
  superclass : Option TypeId
  /-- The directly implemented or extended interfaces, in order. -/
  interfaces : List TypeId
  /-- The declaration applied to its own type parameters. -/
  selfType : TypeId
  deriving DecidableEq, Repr

namespace Declaration

/-- The direct supertypes: the superclass, if any, then the interfaces. -/
def supertypes (declaration : Declaration) : List TypeId :=
  declaration.superclass.toList ++ declaration.interfaces

end Declaration

/-- The name that `name` has inside `package`, or `name` itself when it is not inside. -/
def relativeName (package name : String) : String :=
  if package.isEmpty then name else (Dotted.inside? package name).getD name

/-- A field of a declaration. -/
structure Field where
  name : String
  type : TypeId
  enclosing : DeclId
  modifiers : Modifiers
  /-- The qualified names of its annotations, in order. -/
  annotations : List String
  deriving DecidableEq, Repr

end ParcelCompanion
