import ParcelCompanion.Diagnostic.Basic
import ParcelCompanion.Json.Reader
import ParcelCompanion.Json.Writer
import ParcelCompanion.Record

/-!
# Diagnostics in JSON

The JSON form of a diagnostic is a record whose severity may be any text, so that a reader need
not know the severities.  An anchor is an object with the kind and the number of what it is.
-/

namespace ParcelCompanion

namespace Anchor

/-- The word for what an anchor is. -/
def kind : Anchor → String
  | .element _ => "element"
  | .declaration _ => "declaration"

/-- The number of what an anchor is. -/
def number : Anchor → Nat
  | .element id => id.index
  | .declaration id => id.index

/-- The anchor of the given kind with the given number. -/
def ofKind? (kind : String) (number : Nat) : Option Anchor :=
  if kind = "element" then some (.element ⟨number⟩)
  else if kind = "declaration" then some (.declaration ⟨number⟩)
  else none

/-- The word that a JSON value is: a string, or an object whose only member has the word as key
and is `null`. -/
def word? : Json.Value → Option String
  | .string text => text
  | .object [(key, .null)] => key
  | _ => none

/-- The fields of an anchor. -/
def recordFields : List RecordField := [⟨"kind", []⟩, ⟨"id", []⟩]

/-- The anchor that a JSON value is.  Written as a list, it spells its kind as a string. -/
def ofJson? (value : Json.Value) : Option Anchor := do
  let record ← Record.ofJson? recordFields value
  let kind ← record.required "kind" (if record.positional then Json.Value.text? else word?)
  let number ← record.required "id" Json.Value.word?
  ofKind? kind number

/-- The JSON form of an anchor. -/
def toJson (anchor : Anchor) : Json.Value :=
  .ofMembers [("kind", .ofText anchor.kind), ("id", .ofNat anchor.number)]

end Anchor

/-- A diagnostic as tools exchange it. -/
structure DiagnosticRecord where
  code : Option String
  /-- The word for the severity. -/
  severity : String
  message : String
  anchor : Option Anchor
  notes : List String
  deriving DecidableEq, Repr

namespace DiagnosticRecord

/-- What tools are told of a diagnostic. -/
def ofDiagnostic (diagnostic : Diagnostic) : DiagnosticRecord where
  code := diagnostic.code
  severity := diagnostic.severity.name
  message := diagnostic.message
  anchor := diagnostic.anchor
  notes := diagnostic.notes

/-- The fields of a diagnostic. -/
def recordFields : List RecordField :=
  [⟨"code", []⟩, ⟨"severity", []⟩, ⟨"message", []⟩, ⟨"anchor", []⟩, ⟨"notes", []⟩]

/-- The diagnostic that a JSON value is. -/
def ofJson? (value : Json.Value) : Option DiagnosticRecord := do
  let record ← Record.ofJson? recordFields value
  return {
    code := ← record.optional "code" (Json.Value.nullable? Json.Value.text?)
    severity := ← record.required "severity" Json.Value.text?
    message := ← record.required "message" Json.Value.text?
    anchor := ← record.optional "anchor" (Json.Value.nullable? Anchor.ofJson?)
    notes := ← record.required "notes" (Json.Value.list? Json.Value.text?) }

/-- The JSON form of a diagnostic. -/
def toJson (diagnostic : DiagnosticRecord) : Json.Value :=
  .ofMembers [
    ("code", .ofOption (diagnostic.code.map .ofText)),
    ("severity", .ofText diagnostic.severity),
    ("message", .ofText diagnostic.message),
    ("anchor", .ofOption (diagnostic.anchor.map Anchor.toJson)),
    ("notes", .ofTexts diagnostic.notes)]

/-- Reads a JSON text as a diagnostic. -/
def parse (text : String) : Option DiagnosticRecord := do
  ofJson? (← Json.parse text)

/-- A diagnostic as a JSON text on one line. -/
def compact (diagnostic : DiagnosticRecord) : String :=
  diagnostic.toJson.compact

end DiagnosticRecord

/-- The JSON form of a diagnostic. -/
def Diagnostic.toJson (diagnostic : Diagnostic) : Json.Value :=
  (DiagnosticRecord.ofDiagnostic diagnostic).toJson

/-- A diagnostic as a JSON text over several lines. -/
def Diagnostic.text (diagnostic : Diagnostic) : String :=
  diagnostic.toJson.pretty

end ParcelCompanion
