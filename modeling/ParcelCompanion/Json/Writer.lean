import ParcelCompanion.Json.Value

/-!
# Writing JSON

A value is written on one line without blanks, or over several lines with an indentation of two
spaces.  Only quotes, backslashes and control characters below the space are escaped, by their
letter when they have one and by a code in lower case otherwise.  A string that is no text is
written as an unpaired surrogate, so that it is read as none again.
-/

namespace ParcelCompanion.Json

/-! ### Strings -/

/-- The hexadecimal digit of a number below sixteen, in lower case. -/
def hexChar (n : Nat) : Char :=
  if n < 10 then Char.ofNat ('0'.toNat + n) else Char.ofNat ('a'.toNat + (n - 10))

/-- A character as it is written in a string. -/
def escape (c : Char) : List Char :=
  match c with
  | '"' => ['\\', '"']
  | '\\' => ['\\', '\\']
  | '\x08' => ['\\', 'b']
  | '\x0c' => ['\\', 'f']
  | '\n' => ['\\', 'n']
  | '\r' => ['\\', 'r']
  | '\t' => ['\\', 't']
  | c =>
    if c.toNat < 0x20 then ['\\', 'u', '0', '0', hexChar (c.toNat / 16), hexChar (c.toNat % 16)]
    else [c]

/-- The string that stands for a text. -/
def quote (text : String) : String :=
  String.ofList ('"' :: text.toList.flatMap escape ++ ['"'])

/-- A string as it is written. -/
def writeText : Text → String
  | some text => quote text
  | none => "\"\\ud800\""

/-! ### On one line -/

namespace Value

mutual

/-- A value on one line. -/
def compact : Value → String
  | .null => "null"
  | .bool true => "true"
  | .bool false => "false"
  | .number spelling => spelling
  | .string text => writeText text
  | .array items => "[" ++ String.intercalate "," (compactItems items) ++ "]"
  | .object members => "\x7b" ++ String.intercalate "," (compactMembers members) ++ "\x7d"

/-- The items of an array, each on one line. -/
def compactItems : List Value → List String
  | [] => []
  | item :: items => item.compact :: compactItems items

/-- The members of an object, each on one line. -/
def compactMembers : List (Text × Value) → List String
  | [] => []
  | (key, value) :: members =>
    (writeText key ++ ":" ++ value.compact) :: compactMembers members

end

/-! ### Over several lines -/

/-- The indentation of a line. -/
def indentation (level : Nat) : String :=
  String.ofList (List.replicate (2 * level) ' ')

/-- A list between brackets, with each entry on a line of its own. -/
def block (level : Nat) (opening closing : String) (entries : List String) : String :=
  if entries.isEmpty then opening ++ closing
  else
    let lines := entries.map fun entry => "\n" ++ indentation (level + 1) ++ entry
    opening ++ String.intercalate "," lines ++ "\n" ++ indentation level ++ closing

mutual

/-- A value over several lines, of which the first is already indented to the level. -/
def indented (level : Nat) : Value → String
  | .array items => block level "[" "]" (indentedItems (level + 1) items)
  | .object members => block level "\x7b" "\x7d" (indentedMembers (level + 1) members)
  | value => value.compact

/-- The items of an array, each over several lines. -/
def indentedItems (level : Nat) : List Value → List String
  | [] => []
  | item :: items => item.indented level :: indentedItems level items

/-- The members of an object, each over several lines. -/
def indentedMembers (level : Nat) : List (Text × Value) → List String
  | [] => []
  | (key, value) :: members =>
    (writeText key ++ ": " ++ value.indented level) :: indentedMembers level members

end

/-- A value over several lines. -/
def pretty (value : Value) : String :=
  value.indented 0

end Value

end ParcelCompanion.Json
