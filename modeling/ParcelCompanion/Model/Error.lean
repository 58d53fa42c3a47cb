import ParcelCompanion.Model.TypeTerm
import ParcelCompanion.Written.Parse

/-!
# What can go wrong with a model

The causes for which a step of building a model, or a question to it, fails.
-/

namespace ParcelCompanion

/-- Why a model refuses a step or a question. -/
inductive ModelError where
  /-- No declaration has the number. -/
  | unknownDeclaration (id : DeclId)
  /-- No element has the number. -/
  | unknownElement (id : ElementId)
  /-- No type has the number. -/
  | unknownType (id : TypeId)
  /-- The qualified name is taken. -/
  | duplicateDeclaration (name : String)
  /-- The qualified name is not inside the package given for it. -/
  | packageMismatch (name package : String)
  /-- The declaration named `owner` has no type parameter at the position. -/
  | invalidTypeParameter (owner : String) (index : Nat)
  /-- The declaration takes another number of type arguments. -/
  | invalidArgumentCount (name : String) (expected actual : Nat)
  /-- The text is no written type. -/
  | malformedType (text : String) (fault : WrittenType.Fault)
  /-- The declarations with these names are, in a circle, direct supertypes of one another. -/
  | cyclicHierarchy (names : List String)
  /-- The type is a component of itself and so has no name. -/
  | endlessType (id : TypeId)
  deriving DecidableEq, Repr

namespace ModelError

/-- The wording of an error. -/
def message : ModelError → String
  | .unknownDeclaration id => "Unknown declaration: " ++ id.shown
  | .unknownElement id => "Unknown element: " ++ id.shown
  | .unknownType id => "Unknown type: " ++ id.shown
  | .duplicateDeclaration name => "Duplicate declaration: " ++ name
  | .packageMismatch name package =>
    "Declaration " ++ name ++ " is not inside package '" ++ package ++ "'"
  | .invalidTypeParameter owner index =>
    "Type parameter #" ++ toString index ++ " does not exist on " ++ owner
  | .invalidArgumentCount name expected actual =>
    "Invalid type argument count for " ++ name ++ ": expected " ++ toString expected
      ++ ", got " ++ toString actual
  | .malformedType text fault => "Invalid type expression '" ++ text ++ "': " ++ fault.message
  | .cyclicHierarchy names =>
    "Circular type hierarchy detected: " ++ String.intercalate " -> " names
  | .endlessType id => "Type contains itself: " ++ id.shown

end ModelError

end ParcelCompanion
