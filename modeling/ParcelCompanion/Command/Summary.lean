import ParcelCompanion.Command.Color
import ParcelCompanion.Model.Ancestry
import ParcelCompanion.Output.Memory
import ParcelCompanion.Round.Json

/-!
# Summaries

What a command says on standard output.  A number that counts failures is only named when there are
any.
-/

namespace ParcelCompanion

/-- A number of things, with an `s` behind their name unless there is one. -/
def counted (n : Nat) (noun : String) : String :=
  toString n ++ " " ++ noun ++ if n = 1 then "" else "s"

/-- A number of failures behind a comma, if there are any. -/
def failuresShown (colors : Bool) (n : Nat) (what : String) : String :=
  if n = 0 then "" else ", " ++ Style.failure.apply colors (toString n ++ " " ++ what)

namespace Report

/-- The line that counts elements. -/
def elementLine (colors : Bool) (report : Report) : String :=
  "Processed " ++ counted report.elements "element" ++ ": "
    ++ Style.success.apply colors (toString report.accepted ++ " accepted")
    ++ failuresShown colors report.rejected "rejected"
    ++ failuresShown colors report.failed "failed" ++ ".\n"

/-- The summary of a round whose companions were written below `outDir`, to the given paths. -/
def writtenSummary (colors : Bool) (report : Report) (outDir : String) (paths : List String) :
    String :=
  report.elementLine colors
    ++ "Generated " ++ counted report.emitted "unit" ++ " in "
    ++ Style.place.apply colors outDir
    ++ failuresShown colors report.emissionFailures "failed" ++ ".\n"
    ++ String.join (paths.map fun path => Style.aside.apply colors ("  " ++ path) ++ "\n")

/-- The summary of a round whose companions were kept as units. -/
def plannedSummary (colors : Bool) (report : Report) (units : List GeneratedUnit) : String :=
  report.elementLine colors
    ++ counted report.emitted "unit" ++ " would be generated"
    ++ (if report.emitted = 0 then "." else ":") ++ "\n"
    ++ String.join (units.map fun unit =>
      "  " ++ Style.strong.apply colors unit.name ++ "\n")

end Report

namespace Ancestor

/-- The line for a type, indented by its distance from the first.  The target stands out. -/
def line (colors : Bool) (target : String) (ancestor : Ancestor) : String :=
  String.join (List.replicate (ancestor.depth + 1) "  ")
    ++ (match ancestor.relation with
      | some relation => Style.aside.apply colors (relation.word ++ " ")
      | none => "")
    ++ (if ancestor.name = target then Style.success.apply colors ancestor.name
      else ancestor.name)
    ++ "\n"

end Ancestor

/-- The explanation of whether a type is a subtype of a target. -/
def subtypeExplanation (colors : Bool) (type target : String) (holds : Bool)
    (ancestry : List Ancestor) : String :=
  Style.strong.apply colors type
    ++ (if holds then " is a subtype of " ++ Style.success.apply colors target
      else " is not a subtype of " ++ Style.failure.apply colors target)
    ++ "\n\nHierarchy:\n" ++ String.join (ancestry.map (Ancestor.line colors target))

end ParcelCompanion
