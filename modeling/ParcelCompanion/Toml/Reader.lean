import ParcelCompanion.Toml.DateTime
import ParcelCompanion.Toml.Number
import ParcelCompanion.Toml.Text

/-!
# Reading TOML

A document consists of lines with a header, an assignment or nothing.  A header opens a table for
the assignments up to the next one.  Arrays and inline tables may be nested in one another, and
keys may be dotted, fewer than eighty times.
-/

namespace ParcelCompanion.Toml

/-! ### Keys -/

/-- The nesting that a document must not reach. -/
def nestingLimit : Nat := 80

/-- Whether a character may be in a key without quotes. -/
def isBareKeyChar (c : Char) : Bool :=
  c.isAlphanum || c == '-' || c == '_'

/-- Reads a key without dots. -/
def readSimpleKey (cs : List Char) : Option (String × List Char) :=
  match cs with
  | '"' :: _ | '\'' :: _ => readLineString cs
  | _ =>
    let key := cs.takeWhile isBareKeyChar
    if key.isEmpty then none else some (String.ofList key, cs.dropWhile isBareKeyChar)

/-- Reads a key with dots as its parts, of which there are at most `budget`. -/
def readKeyParts (budget : Nat) (cs : List Char) : Option (List String × List Char) :=
  match budget with
  | 0 => none
  | budget + 1 => do
    let (part, cs) ← readSimpleKey (skipBlanks cs)
    match skipBlanks cs with
    | '.' :: cs =>
      let (parts, cs) ← readKeyParts budget cs
      return (part :: parts, cs)
    | cs => return ([part], cs)

/-- Reads a key as the path to its table and its last part. -/
def readKey (cs : List Char) : Option (List String × String × List Char) := do
  let (parts, cs) ← readKeyParts (nestingLimit - 1) cs
  return (parts.dropLast, ← parts.getLast?, cs)

/-! ### Values -/

/-- Reads the given characters. -/
def readWord : List Char → List Char → Option (List Char)
  | [], cs => some cs
  | w :: word, c :: cs => if w = c then readWord word cs else none
  | _ :: _, [] => none

/-- Reads a number, a date or a time. -/
def readScalar (cs : List Char) : Option (Value × List Char) :=
  readDateTime cs <|> readFloat cs <|> readInteger cs

/-- A key with dots and the value assigned to it. -/
abbrev Assignment := List String × String × Value

mutual

/-- Reads a value in which arrays and inline tables are nested at most `room` deep. -/
def readValue (budget room : Nat) (cs : List Char) : Option (Value × List Char) :=
  match budget with
  | 0 => none
  | budget + 1 =>
    match cs with
    | '"' :: _ | '\'' :: _ => do
      let (text, cs) ← readString cs
      return (.string text, cs)
    | '[' :: cs =>
      match room with
      | 0 => none
      | room + 1 => do
        let (items, cs) ← readItems budget room (skipAll cs)
        return (.array items, cs)
    | '\x7b' :: cs =>
      match room with
      | 0 => none
      | room + 1 => do
        let (assignments, cs) ←
          match skipBlanks cs with
          | '\x7d' :: cs => some ([], cs)
          | cs => readAssignments budget room cs
        return (.table (finishEntries (← Entries.assignAll assignments [])), cs)
    | 't' :: cs => return (.boolean true, ← readWord ['r', 'u', 'e'] cs)
    | 'f' :: cs => return (.boolean false, ← readWord ['a', 'l', 's', 'e'] cs)
    | cs => readScalar cs

/-- Reads the rest of an array from an item or its closing bracket on. -/
def readItems (budget room : Nat) (cs : List Char) : Option (List Value × List Char) :=
  match budget with
  | 0 => none
  | budget + 1 =>
    match cs with
    | ']' :: cs => some ([], cs)
    | cs => do
      let (item, cs) ← readValue budget room cs
      match skipAll cs with
      | ',' :: cs =>
        let (items, cs) ← readItems budget room (skipAll cs)
        return (item :: items, cs)
      | ']' :: cs => return ([item], cs)
      | _ => none

/-- Reads the assignments of an inline table, of which there is at least one, and the brace after
them. -/
def readAssignments (budget room : Nat) (cs : List Char) :
    Option (List Assignment × List Char) :=
  match budget with
  | 0 => none
  | budget + 1 => do
    let (path, key, cs) ← readKey cs
    match cs with
    | '=' :: cs =>
      let (value, cs) ← readValue budget room (skipBlanks cs)
      match skipBlanks cs with
      | ',' :: cs =>
        let (assignments, cs) ← readAssignments budget room cs
        return ((path, key, value) :: assignments, cs)
      | '\x7d' :: cs => return ([(path, key, value)], cs)
      | _ => none
    | _ => none

end

/-- Reads an assignment and the end of its line. -/
def readAssignmentLine (cs : List Char) : Option (Assignment × List Char) := do
  let (path, key, cs) ← readKey cs
  match cs with
  | '=' :: cs =>
    let (value, cs) ← readValue (2 * cs.length + 2) (nestingLimit - 1) (skipBlanks cs)
    return ((path, key, value), ← readLineRest cs)
  | _ => none

/-! ### Documents -/

/-- The part of a document that a header opens.  The first part has none. -/
inductive Header where
  | root
  | table (path : List String) (key : String)
  | element (path : List String) (key : String)
  deriving DecidableEq, Repr

/-- Reads a header and the end of its line. -/
def readHeaderLine : List Char → Option (Header × List Char)
  | '[' :: '[' :: cs => do
    let (path, key, cs) ← readKey cs
    match cs with
    | ']' :: ']' :: cs => return (.element path key, ← readLineRest cs)
    | _ => none
  | '[' :: cs => do
    let (path, key, cs) ← readKey cs
    match cs with
    | ']' :: cs => return (.table path key, ← readLineRest cs)
    | _ => none
  | _ => none

/-- The table of a document together with the part that a header opens. -/
def addPart (header : Header) (assignments : List Assignment) (entries : Entries) :
    Option Entries :=
  let fill := Entries.assignAll assignments
  match header with
  | .root => fill entries
  | .table path key => entries.below (Entries.define fill key) path
  | .element path key => entries.below (Entries.append fill key) path

/-- Reads the rest of a document in the part that `header` opens, whose assignments so far are
given from the last to the first.  Every step reads a line. -/
def readLines (budget : Nat) (header : Header) (assignments : List Assignment)
    (entries : Entries) (cs : List Char) : Option Entries :=
  match budget with
  | 0 => none
  | budget + 1 =>
    match skipAll cs with
    | [] => addPart header assignments.reverse entries
    | '[' :: cs => do
      let entries ← addPart header assignments.reverse entries
      let (header, cs) ← readHeaderLine ('[' :: cs)
      readLines budget header [] entries cs
    | cs => do
      let (assignment, cs) ← readAssignmentLine cs
      readLines budget header (assignment :: assignments) entries cs

/-- Reads a text as the entries of a document.  A byte order mark in front is skipped. -/
def parse (text : String) : Option (List (String × Value)) := do
  let cs := match text.toList with
    | '\uFEFF' :: cs => cs
    | cs => cs
  return finishEntries (← readLines (cs.length + 1) .root [] [] cs)

end ParcelCompanion.Toml
