import ParcelCompanion.Json.Value

/-!
# Records in documents

A record of a document gives values to named fields.  It is written with keys, in any order, or as
the list of its values in the order of the fields.  A key that no field has is skipped with its
value, a field given twice is an error, and a list must not be longer than there are fields.
-/

namespace ParcelCompanion

/-- A field of a record: its name, and other names under which it may be given. -/
structure RecordField where
  name : String
  aliases : List String := []
  deriving DecidableEq, Repr

/-- The values given to the fields of a record, by the name of the field. -/
structure Record (α : Type) where
  /-- Whether the values were given without keys. -/
  positional : Bool
  values : List (String × α)

namespace Record

variable {α β : Type}

/-! ### Collecting the values -/

/-- The name of the field that a key means. -/
def fieldName? (fields : List RecordField) (key : String) : Option String :=
  (fields.find? fun field => field.name == key || field.aliases.contains key).map RecordField.name

/-- The value given to a field. -/
def given? (record : Record α) (name : String) : Option α :=
  record.values.lookup name

/-- The record with the given keys and values, in which a key that is no text is an error. -/
def ofMembers (fields : List RecordField) : List (Option String × α) → Option (Record α)
  | [] => some ⟨false, []⟩
  | (key, value) :: members => do
    let record ← ofMembers fields members
    match fieldName? fields (← key) with
    | none => return record
    | some name =>
      if (record.given? name).isSome then failure
      return { record with values := (name, value) :: record.values }

/-- The record with the given values in the order of the fields. -/
def ofItems (fields : List RecordField) (items : List α) : Option (Record α) :=
  if fields.length < items.length then none
  else some ⟨true, (fields.map RecordField.name).zip items⟩

/-- The record that a JSON value is. -/
def ofJson? (fields : List RecordField) : Json.Value → Option (Record Json.Value)
  | .object members => ofMembers fields members
  | .array items => ofItems fields items
  | _ => none

/-! ### Reading the values -/

/-- The value of a field that must be given. -/
def required (record : Record α) (name : String) (read : α → Option β) : Option β := do
  read (← record.given? name)

/-- The value of a field that has a default. -/
def withDefault (record : Record α) (name : String) (default : β) (read : α → Option β) :
    Option β :=
  match record.given? name with
  | some value => read value
  | none => some default

/-- The value of a field that may be left out, but only where values are given by keys. -/
def optional (record : Record α) (name : String) (read : α → Option (Option β)) :
    Option (Option β) :=
  match record.given? name with
  | some value => read value
  | none => if record.positional then none else some none

end Record

end ParcelCompanion
