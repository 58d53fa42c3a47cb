/-!
# Types as they are written

Front ends describe the types of fields, bounds and supertypes by texts such as `int`, `T`,
`String[]` or `java.util.Map<K, ? extends V>`.  A `WrittenType` is the tree of such a text.  Its
names are not resolved: which declaration or type parameter a name means depends on the
declaration that the text stands in.
-/

namespace ParcelCompanion

/-- The direction in which a wildcard is bounded. -/
inductive BoundKind where
  /-- `? extends T` -/
  | upper
  /-- `? super T` -/
  | lower
  deriving DecidableEq, Repr

/-- The word that introduces a bound. -/
def BoundKind.keyword : BoundKind → String
  | .upper => "extends"
  | .lower => "super"

/-- A type as written, before its names are resolved. -/
inductive WrittenType where
  /-- A simple or qualified name with its type arguments, if any. -/
  | named (name : String) (args : List WrittenType)
  /-- An array of an element type. -/
  | array (element : WrittenType)
  /-- The wildcard `?`. -/
  | wildcard
  /-- A wildcard with a bound. -/
  | bounded (kind : BoundKind) (bound : WrittenType)
  deriving Repr

namespace WrittenType

mutual

/-- The canonical text of a written type: no space but inside a bounded wildcard. -/
def text : WrittenType → String
  | .named name args =>
    if args.isEmpty then name else name ++ "<" ++ String.intercalate "," (texts args) ++ ">"
  | .array element => element.text ++ "[]"
  | .wildcard => "?"
  | .bounded kind bound => "? " ++ kind.keyword ++ " " ++ bound.text

/-- The canonical texts of several written types. -/
def texts : List WrittenType → List String
  | [] => []
  | type :: types => type.text :: texts types

end

end WrittenType

end ParcelCompanion
