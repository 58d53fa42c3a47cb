import ParcelCompanion.Model.TypeTerm

/-!
# Diagnostics

A diagnostic tells the user what a round did or could not do.  It is about an element or a
declaration rather than a place in a source text, and says so in a note.
-/

namespace ParcelCompanion

/-- How serious a diagnostic is. -/
inductive Severity where
  | help | note | warning | error | bug
  deriving DecidableEq, Repr

namespace Severity

/-- The word for a severity. -/
def name : Severity → String
  | .help => "help"
  | .note => "note"
  | .warning => "warning"
  | .error => "error"
  | .bug => "bug"

/-- All severities, the lightest first. -/
def all : List Severity := [.help, .note, .warning, .error, .bug]

/-- The severity with the given word. -/
def ofName? (word : String) : Option Severity :=
  all.find? fun severity => severity.name == word

end Severity

/-- What a diagnostic is about. -/
inductive Anchor where
  | element (id : ElementId)
  | declaration (id : DeclId)
  deriving DecidableEq, Repr

/-- A message to the user. -/
structure Diagnostic where
  severity : Severity
  message : String
  /-- The code of the rule that was broken. -/
  code : Option String := none
  anchor : Option Anchor := none
  /-- Further remarks, in order. -/
  notes : List String := []
  deriving DecidableEq, Repr

namespace Diagnostic

/-- A plain diagnostic of severity `error`. -/
def error (message : String) : Diagnostic := { severity := .error, message }

/-- A plain diagnostic of severity `note`. -/
def note (message : String) : Diagnostic := { severity := .note, message }

/-- Replaces the code. -/
def withCode (diagnostic : Diagnostic) (code : String) : Diagnostic :=
  { diagnostic with code := some code }

/-- Adds a remark. -/
def withNote (diagnostic : Diagnostic) (note : String) : Diagnostic :=
  { diagnostic with notes := diagnostic.notes ++ [note] }

/-- Adds a remark on what the user may do. -/
def withHelp (diagnostic : Diagnostic) (help : String) : Diagnostic :=
  diagnostic.withNote ("help: " ++ help)

/-- Replaces the anchor, and names it in a remark. -/
def withAnchor (diagnostic : Diagnostic) (anchor : Anchor) (label : String) : Diagnostic :=
  { diagnostic with anchor := some anchor }.withNote ("in `" ++ label ++ "`")

/-- Whether the diagnostic reports an error or worse. -/
def isError (diagnostic : Diagnostic) : Bool :=
  diagnostic.severity == .error || diagnostic.severity == .bug

end Diagnostic

end ParcelCompanion
