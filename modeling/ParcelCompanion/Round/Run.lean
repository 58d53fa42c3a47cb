import ParcelCompanion.Round.Failure
import ParcelCompanion.Round.Json
import ParcelCompanion.Round.Targets

/-!
# Rounds

A round takes annotated elements one by one, then puts out the companions of all targets in the
order of their discovery.  An element is accepted, rejected for the rules it breaks, or failed for
a question that the model could not answer.  Whatever goes wrong is reported and passed over.
-/

namespace ParcelCompanion

namespace Round

/-- A round under way. -/
structure Progress where
  targets : Targets := {}
  report : Report := {}
  /-- The diagnostics reported so far, in order. -/
  diagnostics : Array Diagnostic := #[]

/-- Reports diagnostics. -/
def Progress.tell (progress : Progress) (diagnostics : List Diagnostic) : Progress :=
  { progress with diagnostics := progress.diagnostics ++ diagnostics }

/-! ### Elements -/

/-- The name of an element and the canonical name of its type, in which a type parameter is
replaced by its upper bound. -/
def bindingOf (m : Model) (id : ElementId) : Except ModelError Binding := do
  let field ← m.element id
  let type ← m.boundOfElement id
  return { name := field.name, type := ← m.canonicalName type }

/-- The note on a new target. -/
def targetNote (companion : Companion) : Diagnostic :=
  .note ("targetClassName=" ++ companion.target ++ ",packageName=" ++ companion.package
    ++ ",className=" ++ companion.className)

/-- The note on an accepted element. -/
def fieldNote (field : Binding) : Diagnostic :=
  .note ("elementName=" ++ field.name ++ ",elementType=" ++ field.type)

/-- What becomes of an element. -/
inductive Outcome where
  /-- It is added to the companion of a target, which may be new. -/
  | accepted (field : Binding) (isNew : Bool) (companion : Companion) (targets : Targets)
  | rejected (violations : List Violation)

/-- Judges an element. -/
def judge (m : Model) (settings : Settings) (targets : Targets) (id : ElementId) :
    Except ModelError Outcome := do
  let field ← bindingOf m id
  let violations ← m.violations settings id
  if !violations.isEmpty then return .rejected violations
  let target := (← m.element id).enclosing
  let (isNew, companion, targets) ← targets.request m settings target
  return .accepted field isNew companion (targets.addField target field)

/-- Takes an element. -/
def takeElement (m : Model) (settings : Settings) (progress : Progress) (id : ElementId) :
    Progress :=
  let report := { progress.report with elements := progress.report.elements + 1 }
  match judge m settings progress.targets id with
  | .ok (.accepted field isNew companion targets) =>
    { progress with targets, report := { report with accepted := report.accepted + 1 } }.tell
      ((if isNew then [targetNote companion] else []) ++ [fieldNote field])
  | .ok (.rejected violations) =>
    { progress with report := { report with rejected := report.rejected + 1 } }.tell
      ((RoundFailure.rejected id violations).diagnostics m)
  | .error cause =>
    { progress with report := { report with failed := report.failed + 1 } }.tell
      ((RoundFailure.failed id settings.markerName cause).diagnostics m)

/-- The note at the start of a round. -/
def startNote : Diagnostic := .note "start process parcel annotation"

/-- Takes all elements of a round. -/
def takeElements (m : Model) (settings : Settings) (elements : List ElementId) : Progress :=
  let progress := elements.foldl (takeElement m settings) (({} : Progress).tell [startNote])
  { progress with
    report := { progress.report with companions := progress.targets.companions.size } }

/-! ### Companions -/

/-- What makes the text of a companion. -/
abbrev Generator := Companion → Except SourceError String

variable {m : Type → Type} [Monad m] {unit : Type}

/-- Puts out a companion. -/
def emit (generate : Generator) (sink : Sink m unit) (companion : Companion) :
    m (Except EmissionFault Unit) :=
  match generate companion with
  | .error error => return .error (.source error)
  | .ok text => do
    match ← (sink.put companion.fullName companion.origin text).run with
    | .ok () => return .ok ()
    | .error fault => return .error (.output fault)

/-- Records whether a companion was put out. -/
def recordEmission (model : Model) (progress : Progress) (companion : Companion) :
    Except EmissionFault Unit → Progress
  | .ok () =>
    let report := progress.report
    { progress with report := { report with emitted := report.emitted + 1 } }
  | .error cause =>
    let report := progress.report
    let failure := RoundFailure.emission companion.target companion.origin cause
    { progress with
      report := { report with emissionFailures := report.emissionFailures + 1 } }.tell
      (failure.diagnostics model)

/-- Puts out companions, one after the other. -/
def emitAll (model : Model) (generate : Generator) (sink : Sink m unit) :
    Progress → List Companion → m Progress
  | progress, [] => return progress
  | progress, companion :: companions => do
    let result ← emit generate sink companion
    emitAll model generate sink (recordEmission model progress companion result) companions

end Round

/-- Runs a round over the given elements. -/
def Round.run {m : Type → Type} [Monad m] {unit : Type} (model : Model) (settings : Settings)
    (generate : Round.Generator) (sink : Sink m unit) (elements : List ElementId) :
    m (Report × List Diagnostic) := do
  let progress := Round.takeElements model settings elements
  let progress ←
    Round.emitAll model generate sink progress progress.targets.companions.toList
  return (progress.report, progress.diagnostics.toList)

/-- Runs a round over all annotated elements of a model. -/
def Round.runAll {m : Type → Type} [Monad m] {unit : Type} (model : Model) (settings : Settings)
    (sink : Sink m unit) : m (Report × List Diagnostic) :=
  Round.run model settings Companion.source sink (model.annotatedWith settings.marker)

end ParcelCompanion
