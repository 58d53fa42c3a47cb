import ParcelCompanion.Diagnostic.Json

/-!
# Reports

A report tells what a round did, in numbers.  In JSON a round is put out as one document: its
report, then its diagnostics in order.
-/

namespace ParcelCompanion

/-- What a round did, in numbers. -/
structure Report where
  /-- The elements taken. -/
  elements : Nat := 0
  /-- The elements added to a companion. -/
  accepted : Nat := 0
  /-- The elements that break a rule. -/
  rejected : Nat := 0
  /-- The elements that the model could not answer for. -/
  failed : Nat := 0
  /-- The companions made. -/
  companions : Nat := 0
  /-- The companions put out. -/
  emitted : Nat := 0
  /-- The companions that could not be put out. -/
  emissionFailures : Nat := 0
  deriving DecidableEq, Repr

/-- Whether anything went wrong. -/
def Report.hasErrors (report : Report) : Bool :=
  report.rejected > 0 || report.failed > 0 || report.emissionFailures > 0

/-! ### In JSON -/

/-- The JSON form of a report. -/
def Report.toJson (report : Report) : Json.Value :=
  .ofMembers [
    ("elements", .ofNat report.elements),
    ("accepted", .ofNat report.accepted),
    ("rejected", .ofNat report.rejected),
    ("failed", .ofNat report.failed),
    ("descriptors", .ofNat report.companions),
    ("emitted", .ofNat report.emitted),
    ("emission_failures", .ofNat report.emissionFailures)]

/-- The document for a round, as a JSON text over several lines. -/
def Round.document (report : Report) (diagnostics : List Diagnostic) : String :=
  (Json.Value.ofMembers [
    ("report", report.toJson),
    ("diagnostics", .array (diagnostics.map Diagnostic.toJson))]).pretty

end ParcelCompanion
