/-!
# JSON values

A value keeps what its reader needs to know.  A number is kept as it is spelled, since its range
matters only where a number is asked for.  A string may hold an escape that is half of a surrogate
pair; such a string is no text.
-/

namespace ParcelCompanion.Json

/-- The text that a string stands for, or `none` when it has an unpaired surrogate. -/
abbrev Text := Option String

/-- A JSON value. -/
inductive Value where
  | null
  | bool (value : Bool)
  /-- A number by its spelling. -/
  | number (spelling : String)
  | string (text : Text)
  | array (items : List Value)
  /-- An object with its members in order, repeated keys included. -/
  | object (members : List (Text × Value))
  deriving Repr

namespace Value

/-! ### Making values -/

/-- A string that is a text. -/
def ofText (text : String) : Value := .string (some text)

/-- A natural number. -/
def ofNat (n : Nat) : Value := .number (toString n)

/-- An array of texts. -/
def ofTexts (texts : List String) : Value := .array (texts.map ofText)

/-- A value, or `null` for its absence. -/
def ofOption : Option Value → Value
  | some value => value
  | none => .null

/-- An object from keys that are texts. -/
def ofMembers (members : List (String × Value)) : Value :=
  .object (members.map fun (key, value) => (some key, value))

/-! ### Asking for values -/

/-- The text that a value is. -/
def text? : Value → Option String
  | .string text => text
  | _ => none

/-- The truth value that a value is. -/
def bool? : Value → Option Bool
  | .bool value => some value
  | _ => none

/-- The natural number that a value is.  A number with a sign, a point or an exponent is none,
whatever its size. -/
def nat? : Value → Option Nat
  | .number spelling =>
    if spelling.toList.all Char.isDigit then spelling.toNat? else none
  | _ => none

/-- The natural number of 32 bits that a value is. -/
def word? (value : Value) : Option Nat :=
  value.nat?.filter (· < UInt32.size)

/-- The items of the array that a value is. -/
def items? : Value → Option (List Value)
  | .array items => some items
  | _ => none

/-- The array that a value is, with each item read by the given function. -/
def list? {α : Type} (read : Value → Option α) (value : Value) : Option (List α) := do
  (← value.items?).mapM read

/-- What the given function reads, or `none` for `null`. -/
def nullable? {α : Type} (read : Value → Option α) : Value → Option (Option α)
  | .null => some none
  | value => some <$> read value

/-- The first member of the object that a value is under the given key. -/
def member? (value : Value) (key : String) : Option Value :=
  match value with
  | .object members => (members.find? fun member => member.1 == some key).map Prod.snd
  | _ => none

end Value

end ParcelCompanion.Json
