import ParcelCompanion.Diagnostic.Basic
import ParcelCompanion.Model.Basic
import ParcelCompanion.Settings.Basic

/-!
# Rules for annotated fields

An annotated field must not be private or static, must be in a class, the class must not be
private, and its name must not be in a reserved namespace.  Every rule is checked for every field,
so that all faults of a field are reported at once.
-/

namespace ParcelCompanion

/-- A rule that an annotated field breaks. -/
inductive Violation where
  /-- The field is private or static. -/
  | privateOrStatic (marker owner field : String) (element : ElementId)
  /-- What encloses the field is no class. -/
  | notInClass (marker owner field : String) (enclosing : DeclId)
  /-- The class of the field is private. -/
  | inPrivateClass (marker owner field : String) (enclosing : DeclId)
  /-- The class of the field is in the reserved namespace with the given label. -/
  | reservedNamespace (marker owner label : String) (element : ElementId)
  deriving DecidableEq, Repr

namespace Violation

/-- The wording of a violation. -/
def message : Violation → String
  | .privateOrStatic marker owner field _ =>
    "@" ++ marker ++ " fields must not be private or static. (" ++ owner ++ "." ++ field ++ ")"
  | .notInClass marker owner field _ =>
    "@" ++ marker ++ " fields may only be contained in classes. (" ++ owner ++ "." ++ field
      ++ ")"
  | .inPrivateClass marker owner field _ =>
    "@" ++ marker ++ " fields may not be contained in private classes. (" ++ owner ++ "."
      ++ field ++ ")"
  | .reservedNamespace marker owner label _ =>
    "@" ++ marker ++ "-annotated class incorrectly in " ++ label ++ " package. (" ++ owner
      ++ ")"

/-- The code of the rule. -/
def code : Violation → String
  | .privateOrStatic .. => "E4001"
  | .notInClass .. => "E4002"
  | .inPrivateClass .. => "E4003"
  | .reservedNamespace .. => "E4004"

/-- The word for what a declaration is, when it exists. -/
def enclosingKind (m : Model) (id : DeclId) : String :=
  match m.declaration? id with
  | some declaration => declaration.kind.name
  | none => "declaration"

/-- The diagnostic for a violation. -/
def diagnostic (m : Model) (violation : Violation) : Diagnostic :=
  let plain := (Diagnostic.error violation.message).withCode violation.code
  match violation with
  | .privateOrStatic _ owner field element =>
    (plain.withAnchor (.element element) (owner ++ "." ++ field)).withHelp
      "remove the `private` and `static` modifiers"
  | .notInClass _ owner _ enclosing =>
    (plain.withAnchor (.declaration enclosing) owner).withNote
      ("`" ++ owner ++ "` is an " ++ enclosingKind m enclosing)
  | .inPrivateClass _ owner _ enclosing => plain.withAnchor (.declaration enclosing) owner
  | .reservedNamespace _ owner _ element =>
    (plain.withAnchor (.element element) owner).withHelp
      "move the class out of the platform namespace"

end Violation

namespace Model

/-- The rules that a field of the given declaration breaks, in order. -/
def violationsOf (settings : Settings) (id : ElementId) (field : Field)
    (enclosing : Declaration) : List Violation :=
  let marker := settings.markerName
  let owner := enclosing.name
  (if field.modifiers.isPrivate || field.modifiers.isStatic then
    [.privateOrStatic marker owner field.name id] else [])
  ++ (if enclosing.kind != .classType then
    [.notInClass marker owner field.name field.enclosing] else [])
  ++ (if enclosing.modifiers.isPrivate then
    [.inPrivateClass marker owner field.name field.enclosing] else [])
  ++ (match settings.reservedFor? owner with
    | some entry => [.reservedNamespace marker owner entry.label id]
    | none => [])

/-- The rules that an element breaks, in order. -/
def violations (m : Model) (settings : Settings) (id : ElementId) :
    Except ModelError (List Violation) := do
  let field ← m.element id
  let enclosing ← m.declaration field.enclosing
  return violationsOf settings id field enclosing

end Model

end ParcelCompanion
