import ParcelCompanion.Document.Json
import ParcelCompanion.Model.Hierarchy
import ParcelCompanion.Model.Resolve

/-!
# From documents to models

All declarations of a document are registered before any type in it is resolved, so they may refer
to one another in any order.  The entries are then completed one after the other: bounds,
superclass, interfaces, fields.
-/

namespace ParcelCompanion

namespace DeclarationEntry

/-- What an entry declares. -/
def header (entry : DeclarationEntry) : Header where
  name := entry.name
  kind := entry.kind
  package := entry.package
  modifiers := .ofList entry.modifiers
  parameters := entry.parameters.map ParameterEntry.name

/-- Adds a field of an entry to its declaration. -/
def addField (decl : DeclId) (field : FieldEntry) : Edit Unit := do
  let type ← Edit.resolveText decl field.type
  let _ ← Edit.addField {
    name := field.name
    type
    enclosing := decl
    modifiers := .ofList field.modifiers
    annotations := field.annotations }

/-- Sets the bounds of a type parameter of an entry. -/
def bound (decl : DeclId) (parameter : ParameterEntry) (index : Nat) : Edit Unit := do
  let bounds ← parameter.bounds.mapM (Edit.resolveText decl)
  Edit.setBounds decl index bounds

/-- Completes the declaration of an entry. -/
def complete (entry : DeclarationEntry) (decl : DeclId) : Edit Unit := do
  entry.parameters.zipIdx.forM fun (parameter, index) => bound decl parameter index
  entry.superclass.forM fun text => do
    Edit.setSuperclass decl (← Edit.resolveText decl text)
  entry.interfaces.forM fun text => do
    Edit.addInterface decl (← Edit.resolveText decl text)
  entry.fields.forM (addField decl)

end DeclarationEntry

namespace Document

/-- Adds the declarations of a document to a model. -/
def register (document : Document) : Edit Unit := do
  let ids ← document.declarations.mapM fun entry => Edit.declare entry.header
  (document.declarations.zip ids).forM fun (entry, decl) => entry.complete decl

/-- The finished model of a document. -/
def build (document : Document) : Except ModelError Model :=
  match document.register.run.run Model.platform with
  | (.ok (), m) => m.finish
  | (.error error, _) => .error error

/-- Why a JSON text gives no model. -/
inductive LoadError where
  /-- The text is no document. -/
  | malformed
  /-- The document describes no model. -/
  | model (error : ModelError)
  deriving DecidableEq, Repr

/-- The finished model of the document that a JSON text is. -/
def load (text : String) : Except LoadError Model :=
  match parse text with
  | none => .error .malformed
  | some document =>
    match document.build with
    | .ok m => .ok m
    | .error error => .error (.model error)

end Document

end ParcelCompanion
