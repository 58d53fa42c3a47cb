import ParcelCompanion.Document.Json
import ParcelCompanion.Proofs.Json.Record

/-!
# Documents are read as they were written

Whatever is in a document, its text is read as the same document again.  Every record in it is
written under the proper names of its fields, and only what is absent is left out, which is also what
a reader takes for a field that is not given.  From there it goes up: words, type parameters and
fields, declarations, documents, and last their texts.
-/

namespace ParcelCompanion

open Json (Value)

/-! ### Words -/

lemma DeclKind.ofJson?_ofText (kind : DeclKind) : ofJson? (.ofText kind.name) = some kind := by
  cases kind <;> decide

lemma Modifier.ofJson?_ofText (modifier : Modifier) :
    ofJson? (.ofText modifier.name) = some modifier := by
  cases modifier <;> decide

/-! ### Entries -/

namespace ParameterEntry

lemma ofJson?_toJson (entry : ParameterEntry) : ofJson? entry.toJson = some entry := by
  have hrecord : Record.ofJson? recordFields entry.toJson = some ⟨false, _⟩ :=
    Record.ofJson?_ofMembers (show Record.NameFields recordFields ["name", "bounds"] by decide)
  simp [ofJson?, hrecord, Record.required, Record.withDefault, Record.given?, List.lookup_cons]

lemma isProper_toJson (entry : ParameterEntry) : entry.toJson.IsProper := by
  refine Value.isProper_ofMembers ?_
  simp only [List.forall_mem_cons, List.not_mem_nil, false_implies, implies_true, and_true]
  exact ⟨Value.isProper_ofText _, Value.isProper_ofTexts _⟩

end ParameterEntry

namespace FieldEntry

lemma ofJson?_toJson (entry : FieldEntry) : ofJson? entry.toJson = some entry := by
  have hrecord : Record.ofJson? recordFields entry.toJson = some ⟨false, _⟩ :=
    Record.ofJson?_ofMembers
      (show Record.NameFields recordFields ["name", "type", "modifiers", "annotations"] by decide)
  have hmodifiers := Value.list?_ofTexts_map Modifier.ofJson?_ofText entry.modifiers
  simp [ofJson?, hrecord, hmodifiers, Record.required, Record.withDefault, Record.given?,
    List.lookup_cons]

lemma isProper_toJson (entry : FieldEntry) : entry.toJson.IsProper := by
  refine Value.isProper_ofMembers ?_
  simp only [List.forall_mem_cons, List.not_mem_nil, false_implies, implies_true, and_true]
  exact ⟨Value.isProper_ofText _, Value.isProper_ofText _, Value.isProper_ofTexts _,
    Value.isProper_ofTexts _⟩

end FieldEntry

namespace DeclarationEntry

lemma keys_optionalMember_sublist (key : String) (text : Option String) :
    ((optionalMember key text).map Prod.fst).Sublist [key] := by
  cases text with
  | none => exact List.nil_sublist _
  | some text => exact List.Sublist.refl _

/-- A declaration is written under the names of its fields, in their order. -/
lemma nameFields_toJson (package superclass : Option String) :
    Record.NameFields recordFields (["name"] ++ (optionalMember "package" package).map Prod.fst
      ++ ["kind", "modifiers", "type-params"]
      ++ (optionalMember "superclass" superclass).map Prod.fst ++ ["interfaces", "fields"]) := by
  have hall : Record.NameFields recordFields (recordFields.map RecordField.name) := by decide
  exact hall.sublist <| ((((List.Sublist.refl ["name"]).append
    (keys_optionalMember_sublist "package" package)).append (List.Sublist.refl _)).append
    (keys_optionalMember_sublist "superclass" superclass)).append (List.Sublist.refl _)

lemma ofJson?_toJson (entry : DeclarationEntry) : ofJson? entry.toJson = some entry := by
  have hrecord : Record.ofJson? recordFields entry.toJson = some ⟨false, _⟩ :=
    Record.ofJson?_ofMembers <| by
      simp only [List.map_append, List.map_cons, List.map_nil]
      exact nameFields_toJson entry.package entry.superclass
  have hmodifiers := Value.list?_ofTexts_map Modifier.ofJson?_ofText entry.modifiers
  have hparameters := Value.list?_array_map ParameterEntry.ofJson?_toJson entry.parameters
  have hfields := Value.list?_array_map FieldEntry.ofJson?_toJson entry.fields
  obtain ⟨name, package, kind, modifiers, parameters, superclass, interfaces, fields⟩ := entry
  rw [ofJson?, hrecord]
  -- the package and the superclass may each be left out
  cases package <;> cases superclass <;>
    simp [optionalMember, hmodifiers, hparameters, hfields, Record.required, Record.withDefault,
      Record.given?, List.lookup_cons, DeclKind.ofJson?_ofText]

lemma isProper_toJson (entry : DeclarationEntry) : entry.toJson.IsProper := by
  have hoptional : ∀ key text, ∀ member ∈ optionalMember key text, member.2.IsProper := by
    intro key text member hmember
    cases text with
    | none => exact absurd hmember List.not_mem_nil
    | some text =>
      rw [List.mem_singleton.mp hmember]
      exact Value.isProper_ofText text
  refine Value.isProper_ofMembers ?_
  simp only [List.forall_mem_append, List.forall_mem_cons, List.not_mem_nil, false_implies,
    implies_true, and_true]
  exact ⟨⟨⟨⟨Value.isProper_ofText _, hoptional _ _⟩, Value.isProper_ofText _,
    Value.isProper_ofTexts _, Value.isProper_array_map ParameterEntry.isProper_toJson _⟩,
    hoptional _ _⟩, Value.isProper_ofTexts _,
    Value.isProper_array_map FieldEntry.isProper_toJson _⟩

end DeclarationEntry

/-! ### Documents -/

namespace Document

/-- A document is what its JSON form is read as. -/
lemma ofJson?_toJson (document : Document) : ofJson? document.toJson = some document := by
  have hrecord : Record.ofJson? recordFields document.toJson = some ⟨false, _⟩ :=
    Record.ofJson?_ofMembers (show Record.NameFields recordFields ["declarations"] by decide)
  have hdeclarations := Value.list?_array_map DeclarationEntry.ofJson?_toJson document.declarations
  simp [ofJson?, hrecord, hdeclarations, Record.withDefault, Record.given?]

/-- No number is in the JSON form of a document, so it is read back from its text. -/
lemma isProper_toJson (document : Document) : document.toJson.IsProper := by
  refine Value.isProper_ofMembers ?_
  rw [List.forall_mem_singleton]
  exact Value.isProper_array_map DeclarationEntry.isProper_toJson _

lemma parse_text (document : Document) : parse document.text = some document := by
  rw [parse, text, document.isProper_toJson.parse_eq.1]
  exact document.ofJson?_toJson

/-- The text of a document is read as the document.  So a text that is read as a document, however it
spells it, may be replaced by the text of the document: this is read as the same document and written
as it stands. -/
theorem roundtrip : (∀ document : Document, parse document.text = some document) ∧
    ∀ (source : String) (document : Document), parse source = some document →
      parse document.text = parse source ∧ (parse document.text).map text = some document.text := by
  refine ⟨parse_text, fun source document hsource => ⟨?_, ?_⟩⟩
  · rw [parse_text, hsource]
  · rw [parse_text, Option.map_some]

/-- A text that leaves out what it can, calls a field by its other name and escapes more than it must
is read back from another text. -/
theorem roundtrip_respelled : ∃ source document, parse source = some document ∧
    document.text ≠ source ∧ parse document.text = parse source ∧
    (parse document.text).map text = some document.text := by
  have hsource : parse
      ("\x7b \"declarations\": [[\"A\"], \x7b\"type_params\": [\x7b\"name\": \"\\u0054\"\x7d], "
        ++ "\"name\": \"\\\"\\u0001\"\x7d] \x7d") =
      some ⟨[{ name := "A" }, { name := "\"\x01", parameters := [{ name := "T" }] }]⟩ := by
    decide +kernel
  exact ⟨_, _, hsource, by decide +kernel, roundtrip.2 _ _ hsource⟩

end Document

end ParcelCompanion
