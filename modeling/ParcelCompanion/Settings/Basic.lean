import ParcelCompanion.Text.Character
import ParcelCompanion.Text.Dotted

/-!
# Settings

The names that a round of generation depends on: which annotation marks fields, which interface
makes a class marshal itself, how generated classes are called, and where no annotated class may
live.
-/

namespace ParcelCompanion

/-- A part of the name space whose classes must not have annotated fields. -/
structure ReservedNamespace where
  /-- How the qualified names in it start. -/
  start : String
  /-- Who owns it, for messages. -/
  label : String
  deriving DecidableEq, Repr

/-- The settings of a round. -/
structure Settings where
  /-- The qualified name of the annotation that marks fields. -/
  marker : String := "kirisame.android.toolset.parcel.ParcelField"
  /-- The qualified name of the interface that tells injectors from delegates. -/
  serializable : String := "android.os.Parcelable"
  /-- What ends the name of an injector. -/
  injectorSuffix : String := "$$ParcelInjector"
  /-- What ends the name of a delegate. -/
  delegateSuffix : String := "$$ParcelDelegate"
  /-- The reserved namespaces, of which the first that a name falls into counts. -/
  reserved : List ReservedNamespace :=
    [⟨"android.", "Android framework"⟩, ⟨"java.", "Java framework"⟩]
  deriving DecidableEq, Repr

/-- Why settings cannot be used. -/
inductive SettingsError where
  /-- The text does not have the form of settings. -/
  | malformed
  /-- The name of the marking annotation is blank. -/
  | noMarker
  /-- The name of the serializable interface is blank. -/
  | noSerializable
  /-- A suffix is empty. -/
  | noSuffix
  /-- Both suffixes are this text. -/
  | equalSuffixes (suffix : String)
  /-- The reserved namespace with this label holds every name. -/
  | emptyNamespace (label : String)
  deriving DecidableEq, Repr

/-- The wording of an error. -/
def SettingsError.message : SettingsError → String
  | .malformed => "Failed to parse config"
  | .noMarker => "Invalid config: annotation must not be empty"
  | .noSerializable => "Invalid config: serializable-type must not be empty"
  | .noSuffix => "Invalid config: suffixes must not be empty"
  | .equalSuffixes suffix =>
    "Invalid config: injector and delegate suffixes must differ (both '" ++ suffix ++ "')"
  | .emptyNamespace label =>
    "Invalid config: reserved namespace '" ++ label ++ "' has an empty prefix"

namespace Settings

/-- The simple name of the marking annotation. -/
def markerName (settings : Settings) : String :=
  Dotted.simple settings.marker

/-- The first reserved namespace that a qualified name falls into. -/
def reservedFor? (settings : Settings) (name : String) : Option ReservedNamespace :=
  settings.reserved.find? fun entry => Dotted.startsWith name entry.start

/-- The first thing that makes the settings unusable. -/
def fault? (settings : Settings) : Option SettingsError :=
  if Text.isBlank settings.marker then some .noMarker
  else if Text.isBlank settings.serializable then some .noSerializable
  else if settings.injectorSuffix.isEmpty || settings.delegateSuffix.isEmpty then some .noSuffix
  else if settings.injectorSuffix = settings.delegateSuffix then
    some (.equalSuffixes settings.injectorSuffix)
  else
    (settings.reserved.find? (·.start.isEmpty)).map fun entry => .emptyNamespace entry.label

/-- The settings, if they can be used. -/
def check (settings : Settings) : Except SettingsError Settings :=
  match settings.fault? with
  | none => .ok settings
  | some fault => .error fault

end Settings

end ParcelCompanion
