/-!
# Dotted names

Qualified names are texts whose segments are separated by dots.  Nothing here asks the segments
to be identifiers or even non-empty: `a..b` has three segments, and the empty name has one.
-/

namespace ParcelCompanion.Dotted

/-! ### On characters -/

/-- The characters before and after the last dot, when there is a dot. -/
def splitLast : List Char → Option (List Char × List Char)
  | [] => none
  | c :: cs =>
    match splitLast cs with
    | some (before, after) => some (c :: before, after)
    | none => if c = '.' then some ([], cs) else none

/-! ### On names -/

/-- The name of what surrounds a qualified name: everything before its last dot. -/
def outer? (name : String) : Option String :=
  (splitLast name.toList).map fun parts => String.ofList parts.1

/-- The last segment of a qualified name. -/
def simple (name : String) : String :=
  match splitLast name.toList with
  | some (_, after) => String.ofList after
  | none => name

/-- The segments of a name, in order. -/
def segments (name : String) : List String :=
  (name.toList.splitOn '.').map String.ofList

/-- What follows `scope` and a dot in `name`, when `name` starts so. -/
def inside? (scope name : String) : Option String :=
  match scope.toList.isPrefixOf? name.toList with
  | some ('.' :: rest) => some (String.ofList rest)
  | _ => none

/-- The name of a member of `scope`. -/
def member (scope name : String) : String :=
  scope ++ "." ++ name

/-- Whether a name starts with the given text, at a dot or not. -/
def startsWith (name start : String) : Bool :=
  start.toList.isPrefixOf name.toList

end ParcelCompanion.Dotted
