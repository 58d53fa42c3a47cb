import ParcelCompanion.Companion.Basic
import ParcelCompanion.Model.Primitive
import ParcelCompanion.Text.Alphabetic
import ParcelCompanion.Text.Number

/-!
# The source of a companion

A companion is a final class with two static methods.  One writes the fields of a target to a
parcel, the other reads them back in the same order, each through a cast.  Every name that the
source mentions, except in the types of fields, must be made of identifiers.
-/

namespace ParcelCompanion

/-- Why a companion has no source. -/
inductive SourceError where
  /-- There is no field to marshal. -/
  | noFields (className : String)
  /-- A segment of a name is no identifier. -/
  | invalidIdentifier (name : String)
  deriving DecidableEq, Repr

/-- The wording of an error. -/
def SourceError.message : SourceError → String
  | .noFields className => "descriptor " ++ className ++ " has no fields"
  | .invalidIdentifier name => "'" ++ name ++ "' is not a valid identifier"

namespace Companion

/-! ### Identifiers -/

/-- The words that are no identifiers. -/
def reservedWords : List String := [
  "abstract", "assert", "boolean", "break", "byte", "case", "catch", "char", "class", "const",
  "continue", "default", "do", "double", "else", "enum", "extends", "final", "finally", "float",
  "for", "goto", "if", "implements", "import", "instanceof", "int", "interface", "long",
  "native", "new", "package", "private", "protected", "public", "return", "short", "static",
  "strictfp", "super", "switch", "synchronized", "this", "throw", "throws", "transient", "try",
  "void", "volatile", "while", "true", "false", "null"]

/-- Whether an identifier may start with the character. -/
def startsIdentifier (c : Char) : Bool :=
  Text.isAlphabetic c || c == '_' || c == '$'

/-- Whether an identifier may go on with the character. -/
def continuesIdentifier (c : Char) : Bool :=
  Text.isAlphabetic c || Text.isNumeric c || c == '_' || c == '$'

/-- Whether a text is an identifier. -/
def isIdentifier (name : String) : Bool :=
  match name.toList with
  | [] => false
  | c :: cs => startsIdentifier c && cs.all continuesIdentifier && !reservedWords.contains name

/-- The first of the names that is no identifier. -/
def invalid? (names : List String) : Option String :=
  names.find? fun name => !isIdentifier name

/-- The names that the source of a companion is made of, in the order in which they are checked. -/
def identifiers (companion : Companion) : List String :=
  (if companion.package.isEmpty then [] else Dotted.segments companion.package)
    ++ [companion.className]
    ++ Dotted.segments companion.target
    ++ companion.fields.map Binding.name

/-- The reason why a companion has no source, if there is one. -/
def fault? (companion : Companion) : Option SourceError :=
  if companion.fields.isEmpty then some (.noFields companion.className)
  else (invalid? companion.identifiers).map .invalidIdentifier

/-! ### Text -/

/-- The type that a value read from a parcel is cast to: the boxing class for a primitive type. -/
def castType (type : String) : String :=
  match Primitive.ofKeyword? type with
  | some primitive => primitive.boxed
  | none => type

/-- The comment on the companion class. -/
def classComment (companion : Companion) : String :=
  match companion.strategy with
  | .injector =>
    "/** Field marshalling for " ++ companion.target
      ++ "; call from its Parcelable implementation. */"
  | .delegate => "/** Field marshalling delegate for " ++ companion.target ++ ". */"

/-- The statement that writes a field. -/
def writeStatement (field : Binding) : String :=
  "parcel.writeValue(target." ++ field.name ++ ");"

/-- The statement that reads a field. -/
def readStatement (field : Binding) : String :=
  "target." ++ field.name ++ " = (" ++ castType field.type ++ ") parcel.readValue(loader);"

/-- The head of one of the two methods. -/
def methodHead (name target : String) : String :=
  "    public static void " ++ name ++ "(" ++ target ++ " target, Parcel parcel) \x7b"

/-- The lines of the source. -/
def sourceLines (companion : Companion) : List String :=
  ["// Generated by parcelgen. Do not edit."]
    ++ (if companion.package.isEmpty then [] else ["package " ++ companion.package ++ ";"])
    ++ ["",
      "import android.os.Parcel;",
      "",
      companion.classComment,
      "public final class " ++ companion.className ++ " \x7b",
      "    private " ++ companion.className ++ "() \x7b",
      "    \x7d",
      "",
      methodHead "writeToParcel" companion.target]
    ++ companion.fields.map (fun field => "        " ++ writeStatement field)
    ++ ["    \x7d",
      "",
      methodHead "readFromParcel" companion.target,
      "        ClassLoader loader = " ++ companion.target ++ ".class.getClassLoader();"]
    ++ companion.fields.map (fun field => "        " ++ readStatement field)
    ++ ["    \x7d", "\x7d"]

/-- The source of a companion. -/
def source (companion : Companion) : Except SourceError String :=
  match companion.fault? with
  | some fault => .error fault
  | none => .ok (String.join (companion.sourceLines.map (· ++ "\n")))

end Companion

end ParcelCompanion
