import ParcelCompanion.Document.Basic
import ParcelCompanion.Json.Reader
import ParcelCompanion.Json.Writer
import ParcelCompanion.Record

/-!
# Model documents in JSON

The JSON form of a document.  When it is written, every field is spelled out but an absent package
or superclass; when it is read, whatever has a default may be left out.
-/

namespace ParcelCompanion

/-! ### Words -/

/-- The kind that a JSON value is: its word, or an object whose only member has its word as key
and is `null`. -/
def DeclKind.ofJson? : Json.Value → Option DeclKind
  | .string (some word) => ofName? word
  | .object [(some word, .null)] => ofName? word
  | _ => none

/-- The modifier that a JSON value is, in the same two forms as a kind. -/
def Modifier.ofJson? : Json.Value → Option Modifier
  | .string (some word) => ofName? word
  | .object [(some word, .null)] => ofName? word
  | _ => none

/-! ### Type parameters -/

namespace ParameterEntry

/-- The fields of a type parameter. -/
def recordFields : List RecordField := [⟨"name", []⟩, ⟨"bounds", []⟩]

/-- The type parameter that a JSON value is. -/
def ofJson? (value : Json.Value) : Option ParameterEntry := do
  let record ← Record.ofJson? recordFields value
  return {
    name := ← record.required "name" Json.Value.text?
    bounds := ← record.withDefault "bounds" [] (Json.Value.list? Json.Value.text?) }

/-- The JSON form of a type parameter. -/
def toJson (entry : ParameterEntry) : Json.Value :=
  .ofMembers [("name", .ofText entry.name), ("bounds", .ofTexts entry.bounds)]

end ParameterEntry

/-! ### Fields -/

namespace FieldEntry

/-- The fields of a field. -/
def recordFields : List RecordField :=
  [⟨"name", []⟩, ⟨"type", []⟩, ⟨"modifiers", []⟩, ⟨"annotations", []⟩]

/-- The field that a JSON value is. -/
def ofJson? (value : Json.Value) : Option FieldEntry := do
  let record ← Record.ofJson? recordFields value
  return {
    name := ← record.required "name" Json.Value.text?
    type := ← record.required "type" Json.Value.text?
    modifiers := ← record.withDefault "modifiers" [] (Json.Value.list? Modifier.ofJson?)
    annotations := ← record.withDefault "annotations" [] (Json.Value.list? Json.Value.text?) }

/-- The JSON form of a field. -/
def toJson (entry : FieldEntry) : Json.Value :=
  .ofMembers [
    ("name", .ofText entry.name),
    ("type", .ofText entry.type),
    ("modifiers", .ofTexts (entry.modifiers.map Modifier.name)),
    ("annotations", .ofTexts entry.annotations)]

end FieldEntry

/-! ### Declarations -/

namespace DeclarationEntry

/-- The fields of a declaration. -/
def recordFields : List RecordField := [
  ⟨"name", []⟩, ⟨"package", []⟩, ⟨"kind", []⟩, ⟨"modifiers", []⟩,
  ⟨"type-params", ["type_params"]⟩, ⟨"superclass", []⟩, ⟨"interfaces", []⟩, ⟨"fields", []⟩]

/-- The declaration that a JSON value is. -/
def ofJson? (value : Json.Value) : Option DeclarationEntry := do
  let record ← Record.ofJson? recordFields value
  return {
    name := ← record.required "name" Json.Value.text?
    package := ← record.withDefault "package" none (Json.Value.nullable? Json.Value.text?)
    kind := ← record.withDefault "kind" .classType DeclKind.ofJson?
    modifiers := ← record.withDefault "modifiers" [] (Json.Value.list? Modifier.ofJson?)
    parameters :=
      ← record.withDefault "type-params" [] (Json.Value.list? ParameterEntry.ofJson?)
    superclass := ← record.withDefault "superclass" none (Json.Value.nullable? Json.Value.text?)
    interfaces := ← record.withDefault "interfaces" [] (Json.Value.list? Json.Value.text?)
    fields := ← record.withDefault "fields" [] (Json.Value.list? FieldEntry.ofJson?) }

/-- The member of a field that is left out when it is absent. -/
def optionalMember (key : String) : Option String → List (String × Json.Value)
  | some text => [(key, .ofText text)]
  | none => []

/-- The JSON form of a declaration. -/
def toJson (entry : DeclarationEntry) : Json.Value :=
  .ofMembers (
    [("name", .ofText entry.name)]
    ++ optionalMember "package" entry.package
    ++ [("kind", .ofText entry.kind.name),
      ("modifiers", .ofTexts (entry.modifiers.map Modifier.name)),
      ("type-params", .array (entry.parameters.map ParameterEntry.toJson))]
    ++ optionalMember "superclass" entry.superclass
    ++ [("interfaces", .ofTexts entry.interfaces),
      ("fields", .array (entry.fields.map FieldEntry.toJson))])

end DeclarationEntry

/-! ### Documents -/

namespace Document

/-- The fields of a document. -/
def recordFields : List RecordField := [⟨"declarations", []⟩]

/-- The document that a JSON value is. -/
def ofJson? (value : Json.Value) : Option Document := do
  let record ← Record.ofJson? recordFields value
  return {
    declarations :=
      ← record.withDefault "declarations" [] (Json.Value.list? DeclarationEntry.ofJson?) }

/-- The JSON form of a document. -/
def toJson (document : Document) : Json.Value :=
  .ofMembers [("declarations", .array (document.declarations.map DeclarationEntry.toJson))]

/-- Reads a JSON text as a document. -/
def parse (text : String) : Option Document := do
  ofJson? (← Json.parse text)

/-- A document as a JSON text on one line. -/
def text (document : Document) : String :=
  document.toJson.compact

end Document

end ParcelCompanion
