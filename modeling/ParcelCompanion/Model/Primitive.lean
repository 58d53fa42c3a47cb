/-!
# Primitive types

The eight types that are no declarations.  Each has a keyword, which is the only way to write it,
and a class that boxes its values.
-/

namespace ParcelCompanion

/-- A primitive type. -/
inductive Primitive where
  | boolean | byte | short | int | long | char | float | double
  deriving DecidableEq, Repr

namespace Primitive

/-- All primitive types. -/
def all : List Primitive :=
  [.boolean, .byte, .short, .int, .long, .char, .float, .double]

/-- The word for a primitive type. -/
def keyword : Primitive → String
  | .boolean => "boolean"
  | .byte => "byte"
  | .short => "short"
  | .int => "int"
  | .long => "long"
  | .char => "char"
  | .float => "float"
  | .double => "double"

/-- The primitive type with the given word. -/
def ofKeyword? (word : String) : Option Primitive :=
  all.find? fun primitive => primitive.keyword == word

/-- The qualified name of the class that boxes a primitive type. -/
def boxed : Primitive → String
  | .boolean => "java.lang.Boolean"
  | .byte => "java.lang.Byte"
  | .short => "java.lang.Short"
  | .int => "java.lang.Integer"
  | .long => "java.lang.Long"
  | .char => "java.lang.Character"
  | .float => "java.lang.Float"
  | .double => "java.lang.Double"

/-- A word denotes a primitive type exactly when it is its keyword. -/
theorem ofKeyword?_keyword (primitive : Primitive) :
    ofKeyword? primitive.keyword = some primitive := by
  cases primitive <;> decide

/-- A primitive type is determined by its position among all of them. -/
theorem idxOf_all_injective {p q : Primitive} (h : all.idxOf p = all.idxOf q) : p = q := by
  revert h
  cases p <;> cases q <;> decide

end Primitive

end ParcelCompanion
