import ParcelCompanion.Model.Basic

/-!
# Building a model

An edit is a step of building a model.  It answers or fails, and either way leaves a model behind:
what a failing edit has stored before it fails stays stored.

References are checked where a declared type, a type parameter, a supertype, a bound or a field is
made.  The components of arrays and wildcards are taken as they come.
-/

namespace ParcelCompanion

/-- A step of building a model. -/
abbrev Edit (α : Type) := ExceptT ModelError (StateM Model) α

/-- What is to be declared. -/
structure Header where
  /-- The qualified name. -/
  name : String
  kind : DeclKind := .classType
  /-- The package, which is everything before the last dot of the name unless it is given. -/
  package : Option String := none
  modifiers : Modifiers := .onlyPublic
  /-- The names of the type parameters. -/
  parameters : List String := []
  deriving DecidableEq, Repr

namespace Header

/-- The package that the declaration is in. -/
def packageName (header : Header) : String :=
  match header.package with
  | some package => package
  | none => (Dotted.outer? header.name).getD ""

/-- Whether a qualified name is the package, a dot, and something more.  Every name is inside the
default package. -/
def isInside (package name : String) : Bool :=
  package.isEmpty || match Dotted.inside? package name with
    | some rest => !rest.isEmpty
    | none => false

end Header

namespace Edit

/-- Stores a type. -/
def intern (term : TypeTerm) : Edit TypeId :=
  modifyGet fun m => m.intern term

/-! ### Declarations -/

/-- Registers a declaration, whose name must be new and inside its package. -/
def declare (header : Header) : Edit DeclId := do
  let m ← get
  if (m.lookup header.name).isSome then
    throw (.duplicateDeclaration header.name)
  let package := header.packageName
  if !Header.isInside package header.name then
    throw (.packageMismatch header.name package)
  modifyGet fun m =>
    m.insertDeclaration header.name package header.kind header.modifiers header.parameters

/-! ### Types -/

/-- A primitive type. -/
def primitive (kind : Primitive) : Edit TypeId :=
  intern (.primitive kind)

/-- A declaration applied to type arguments, of which all must exist.  Their number is not
compared with that of the type parameters. -/
def declared (decl : DeclId) (args : List TypeId) : Edit TypeId := do
  let m ← get
  let _ ← m.declaration decl
  args.forM fun arg => do let _ ← m.type arg
  intern (.declared decl args)

/-- The type parameter at a position, of which only the low 32 bits count.  No other function cuts a
number or a position off. -/
def parameter (owner : DeclId) (index : Nat) : Edit TypeId := do
  let index := index % UInt32.size
  let _ ← (← get).typeParameter owner index
  intern (.parameter owner index)

/-- An array of a type, which need not exist. -/
def array (element : TypeId) : Edit TypeId :=
  intern (.array element)

/-- A wildcard with bounds, which need not exist. -/
def wildcard (upper lower : Option TypeId) : Edit TypeId :=
  intern (.wildcard upper lower)

/-- A type whose name means nothing. -/
def unresolved (name : String) : Edit TypeId :=
  intern (.unresolved name)

/-! ### Supertypes, bounds and fields -/

/-- Sets the superclass of a declaration. -/
def setSuperclass (decl : DeclId) (superclass : TypeId) : Edit Unit := do
  let m ← get
  let _ ← m.type superclass
  let _ ← m.declaration decl
  modify fun m => m.modifyDeclaration decl fun declaration =>
    { declaration with superclass := some superclass }

/-- Adds an interface to those of a declaration. -/
def addInterface (decl : DeclId) (interface : TypeId) : Edit Unit := do
  let m ← get
  let _ ← m.type interface
  let _ ← m.declaration decl
  modify fun m => m.modifyDeclaration decl fun declaration =>
    { declaration with interfaces := declaration.interfaces ++ [interface] }

/-- Replaces the bounds of the type parameter at a position. -/
def setBounds (owner : DeclId) (index : Nat) (bounds : List TypeId) : Edit Unit := do
  let m ← get
  bounds.forM fun bound => do let _ ← m.type bound
  let _ ← m.typeParameter owner index
  modify fun m => m.modifyDeclaration owner fun declaration =>
    { declaration with
      parameters := declaration.parameters.modify index fun parameter => { parameter with bounds } }

/-- Adds a field to the declaration that encloses it. -/
def addField (field : Field) : Edit ElementId := do
  let m ← get
  let _ ← m.declaration field.enclosing
  let _ ← m.type field.type
  modifyGet fun m => m.insertElement field

end Edit

end ParcelCompanion
