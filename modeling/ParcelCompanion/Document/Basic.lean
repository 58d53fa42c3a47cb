import ParcelCompanion.Model.Declaration

/-!
# Model documents

A model document is a front end's description of the declarations of a compilation.  Types are
written as texts, which are resolved in the declaration that they stand in.
-/

namespace ParcelCompanion

/-- A type parameter in a document, with the texts of its bounds. -/
structure ParameterEntry where
  name : String
  bounds : List String := []
  deriving DecidableEq, Repr

/-- A field in a document. -/
structure FieldEntry where
  name : String
  /-- The text of its type. -/
  type : String
  modifiers : List Modifier := []
  /-- The qualified names of its annotations. -/
  annotations : List String := []
  deriving DecidableEq, Repr

/-- A declaration in a document. -/
structure DeclarationEntry where
  /-- The qualified name. -/
  name : String
  /-- The package, which is everything before the last dot of the name unless it is given. -/
  package : Option String := none
  kind : DeclKind := .classType
  modifiers : List Modifier := []
  parameters : List ParameterEntry := []
  /-- The text of the superclass. -/
  superclass : Option String := none
  /-- The texts of the interfaces. -/
  interfaces : List String := []
  fields : List FieldEntry := []
  deriving DecidableEq, Repr

/-- A model document: its declarations, in order. -/
structure Document where
  declarations : List DeclarationEntry := []
  deriving DecidableEq, Repr

end ParcelCompanion
