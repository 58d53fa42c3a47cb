import ParcelCompanion.Record
import ParcelCompanion.Settings.Basic
import ParcelCompanion.Toml.Reader

/-!
# Settings in TOML

Settings are kept in the table `processor` of a document.  Whatever is left out has its default,
and without the table everything has.
-/

namespace ParcelCompanion

/-- The record that a TOML value is.  Surplus items of an array are passed over, and a date is a
record that gives no field. -/
def Record.ofToml? (fields : List RecordField) : Toml.Value → Option (Record Toml.Value)
  | .table entries => ofMembers fields (entries.map fun (key, value) => (some key, value))
  | .array items => ofItems fields (items.take fields.length)
  | .dateTime _ => some ⟨false, []⟩
  | _ => none

namespace ReservedNamespace

/-- The fields of a reserved namespace. -/
def recordFields : List RecordField := [⟨"prefix", []⟩, ⟨"label", []⟩]

/-- The reserved namespace that a TOML value is. -/
def ofToml? (value : Toml.Value) : Option ReservedNamespace := do
  let record ← Record.ofToml? recordFields value
  return {
    start := ← record.required "prefix" Toml.Value.text?
    label := ← record.required "label" Toml.Value.text? }

end ReservedNamespace

namespace Settings

/-- The fields of settings. -/
def recordFields : List RecordField := [
  ⟨"annotation", []⟩, ⟨"serializable-type", []⟩, ⟨"injector-suffix", []⟩,
  ⟨"delegate-suffix", []⟩, ⟨"reserved-namespaces", []⟩]

/-- The settings that a TOML value is. -/
def ofToml? (value : Toml.Value) : Option Settings := do
  let base : Settings := {}
  let record ← Record.ofToml? recordFields value
  return {
    marker := ← record.withDefault "annotation" base.marker Toml.Value.text?
    serializable := ← record.withDefault "serializable-type" base.serializable Toml.Value.text?
    injectorSuffix :=
      ← record.withDefault "injector-suffix" base.injectorSuffix Toml.Value.text?
    delegateSuffix :=
      ← record.withDefault "delegate-suffix" base.delegateSuffix Toml.Value.text?
    reserved := ← record.withDefault "reserved-namespaces" base.reserved
      (Toml.Value.list? ReservedNamespace.ofToml?) }

/-- The settings that a document holds, before they are checked. -/
def ofDocument? (entries : List (String × Toml.Value)) : Option Settings :=
  match entries.lookup "processor" with
  | some value => ofToml? value
  | none => some {}

/-- Reads a TOML text as settings, which must be usable. -/
def parse (text : String) : Except SettingsError Settings :=
  match (Toml.parse text).bind ofDocument? with
  | some settings => settings.check
  | none => .error .malformed

end Settings

end ParcelCompanion
