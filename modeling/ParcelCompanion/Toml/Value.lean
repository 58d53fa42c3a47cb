/-!
# TOML values and tables

A document in TOML is a table of values.  Floating-point numbers and dates are kept by their
spelling, and a table keeps its entries in the order of their first mention.

A document builds its table step by step, and the standard forbids to define anything twice.  What
may still be added to a table depends on how it came to be: a table that a header defined takes no
more headers or dotted keys of its own, a table that only the path of a header passes through may
still be defined, and a table that dotted keys made grows by dotted keys alone.
-/

namespace ParcelCompanion.Toml

/-- A TOML value. -/
inductive Value where
  | string (text : String)
  | integer (value : Int)
  | float (spelling : String)
  | boolean (value : Bool)
  /-- A date, a time, or both. -/
  | dateTime (spelling : String)
  | array (items : List Value)
  | table (entries : List (String × Value))
  deriving Repr

namespace Value

/-- The text that a value is. -/
def text? : Value → Option String
  | .string text => some text
  | _ => none

/-- The items of the array that a value is, each read by the given function. -/
def list? {α : Type} (read : Value → Option α) : Value → Option (List α)
  | .array items => items.mapM read
  | _ => none

end Value

/-! ### Tables under construction -/

/-- How a table came to be. -/
inductive Origin where
  /-- A header defines it. -/
  | header
  /-- The path of a header passes through it. -/
  | path
  /-- A dotted key passes through it. -/
  | dotted
  deriving DecidableEq, Repr

/-- What a key of a table under construction stands for. -/
inductive Node where
  /-- A value that was assigned, and is complete. -/
  | value (value : Value)
  /-- A table under construction. -/
  | table (origin : Origin) (entries : List (String × Node))
  /-- An array of tables, of which the last is under construction. -/
  | tables (elements : List (List (String × Node)))

/-- The entries of a table under construction. -/
abbrev Entries := List (String × Node)

namespace Entries

/-- Replaces what a key stands for, or adds the key. -/
def put (key : String) (node : Node) : Entries → Entries
  | [] => [(key, node)]
  | (k, n) :: entries => if k = key then (key, node) :: entries else (k, n) :: put key node entries

/-! ### Assignments -/

/-- Assigns a value to a key below a path of keys.  The tables on the path must come from dotted
keys or from the paths of headers, and the last of them from dotted keys; `isDotted` tells whether
the table at hand does, and `isBelow` whether the path has led to it. -/
def assign (isDotted isBelow : Bool) (key : String) (value : Value) :
    List String → Entries → Option Entries
  | [], entries =>
    if isDotted != isBelow || (entries.lookup key).isSome then none
    else some (entries.put key (.value value))
  | step :: path, entries =>
    match entries.lookup step with
    | none => do
      return entries.put step (.table .dotted (← assign true true key value path []))
    | some (.table .header _) => none
    | some (.table origin below) => do
      let below ← assign (origin == .dotted) true key value path below
      return entries.put step (.table origin below)
    | some (.tables elements) => do
      let below ← assign false true key value path (← elements.getLast?)
      return entries.put step (.tables (elements.dropLast ++ [below]))
    | some (.value _) => none

/-- Assigns values to dotted keys in a table that no dotted key has made. -/
def assignAll (assignments : List (List String × String × Value)) (entries : Entries) :
    Option Entries :=
  assignments.foldlM
    (fun entries (path, key, value) => assign false false key value path entries) entries

/-! ### Headers -/

/-- Changes the table that the path of a header leads to. -/
def below (change : Entries → Option Entries) : List String → Entries → Option Entries
  | [], entries => change entries
  | step :: path, entries =>
    match entries.lookup step with
    | none => do return entries.put step (.table .path (← below change path []))
    | some (.table origin inner) => do
      return entries.put step (.table origin (← below change path inner))
    | some (.tables elements) => do
      let inner ← below change path (← elements.getLast?)
      return entries.put step (.tables (elements.dropLast ++ [inner]))
    | some (.value _) => none

/-- Defines a table, which at most the path of a header may have passed through before. -/
def define (fill : Entries → Option Entries) (key : String) (entries : Entries) :
    Option Entries :=
  match entries.lookup key with
  | none => do return entries.put key (.table .header (← fill []))
  | some (.table .path inner) => do return entries.put key (.table .header (← fill inner))
  | some _ => none

/-- Adds a table to an array of tables, which may be new. -/
def append (fill : Entries → Option Entries) (key : String) (entries : Entries) :
    Option Entries :=
  match entries.lookup key with
  | none => do return entries.put key (.tables [← fill []])
  | some (.tables elements) => do return entries.put key (.tables (elements ++ [← fill []]))
  | some _ => none

end Entries

/-! ### Finished tables -/

mutual

/-- The value of what a key stands for. -/
def Node.finish : Node → Value
  | .value value => value
  | .table _ entries => .table (finishEntries entries)
  | .tables elements => .array (finishElements elements)

/-- The entries of a finished table. -/
def finishEntries : List (String × Node) → List (String × Value)
  | [] => []
  | (key, node) :: entries => (key, node.finish) :: finishEntries entries

/-- The elements of a finished array of tables. -/
def finishElements : List (List (String × Node)) → List Value
  | [] => []
  | entries :: elements => .table (finishEntries entries) :: finishElements elements

end

end ParcelCompanion.Toml
