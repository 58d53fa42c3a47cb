import ParcelCompanion.Companion.Source
import ParcelCompanion.Output.Sink
import ParcelCompanion.Round.Rule

/-!
# Failures of a round

A failure concerns one element or one companion and never stops a round.  It becomes one or more
diagnostics.
-/

namespace ParcelCompanion

/-- Why a companion was not put out. -/
inductive EmissionFault where
  /-- It has no source. -/
  | source (error : SourceError)
  /-- The sink refused it. -/
  | output (fault : OutputFault)
  deriving DecidableEq, Repr

/-- The wording of a fault. -/
def EmissionFault.message : EmissionFault → String
  | .source error => error.message
  | .output fault => fault.message

/-- What a round could not do. -/
inductive RoundFailure where
  /-- The element breaks rules. -/
  | rejected (element : ElementId) (violations : List Violation)
  /-- The model could not answer a question about the element. -/
  | failed (element : ElementId) (marker : String) (cause : ModelError)
  /-- The companion of the target was not put out. -/
  | emission (target : String) (declaration : DeclId) (cause : EmissionFault)
  deriving DecidableEq, Repr

namespace RoundFailure

/-- The wording of a failure. -/
def message : RoundFailure → String
  | .rejected element violations =>
    element.shown ++ " rejected: " ++ toString violations.length ++ " violation(s)"
  | .failed _ marker _ => "Unable to generate parcel injector for @" ++ marker ++ "."
  | .emission target _ cause =>
    "Unable to write injector for type " ++ target ++ ": " ++ cause.message

/-- The wording of a failure together with its cause, unless that is part of it already. -/
def detail (failure : RoundFailure) : String :=
  match failure with
  | .failed _ _ cause => failure.message ++ "\n\n" ++ cause.message
  | _ => failure.message

/-- The name of an element, or its number when it does not exist. -/
def elementLabel (m : Model) (id : ElementId) : String :=
  match m.element id with
  | .ok field => field.name
  | .error _ => id.shown

/-- The diagnostics for a failure: one for each broken rule, or one. -/
def diagnostics (m : Model) (failure : RoundFailure) : List Diagnostic :=
  match failure with
  | .rejected _ violations => violations.map (Violation.diagnostic m)
  | .failed element _ _ =>
    [((Diagnostic.error failure.detail).withCode "E4101").withAnchor (.element element)
      (elementLabel m element)]
  | .emission target declaration _ =>
    [((Diagnostic.error failure.message).withCode "E4201").withAnchor (.declaration declaration)
      target]

end RoundFailure

end ParcelCompanion
