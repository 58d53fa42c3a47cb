import Mathlib.Tactic.Common
import ParcelCompanion.Round.Run

/-!
# What becomes of companions

Elements are taken without effects; effects begin when companions are put out.  A round may
therefore put out all of its companions first, and count and tell afterwards what became of them.
-/

namespace ParcelCompanion.Round

variable {M : Type → Type} [Monad M] {unit : Type} {generate : Generator} {companion : Companion}

/-! ### Emissions -/

/-- What becomes of companions that are put out one after the other. -/
def emissions {m : Type → Type} [Monad m] {unit : Type} (generate : Generator) (sink : Sink m unit)
    (companions : List Companion) : m (List (Except EmissionFault Unit)) :=
  companions.mapM (emit generate sink)

lemma emissions_cons [LawfulMonad M] (generate : Generator) (sink : Sink M unit)
    (companion : Companion) (companions : List Companion) :
    emissions generate sink (companion :: companions) = do
      let result ← emit generate sink companion
      let results ← emissions generate sink companions
      return result :: results :=
  List.mapM_cons

/-- A companion without a source never reaches the sink. -/
lemma emit_of_no_source {error : SourceError} (h : generate companion = .error error)
    (sink : Sink M unit) : emit generate sink companion = pure (.error (.source error)) := by
  rw [emit, h]

/-- A companion that has a source is put, and what becomes of the source is the result. -/
lemma emit_of_source [LawfulMonad M] {text : String} (h : generate companion = .ok text)
    (sink : Sink M unit) :
    emit generate sink companion =
      Except.mapError .output <$> (sink.put companion.fullName companion.origin text).run := by
  rw [emit, h, map_eq_pure_bind]
  refine bind_congr fun result => ?_
  cases result <;> rfl

/-! ### Counting and telling -/

/-- Records what became of companions, one after the other. -/
def recordEmissions (m : Model) (progress : Progress)
    (entries : List (Companion × Except EmissionFault Unit)) : Progress :=
  entries.foldl (fun progress entry => recordEmission m progress entry.1 entry.2) progress

/-- What a round tells of a companion: nothing if it was put out, or else why it was not. -/
def toldOfEmission (m : Model) (entry : Companion × Except EmissionFault Unit) : List Diagnostic :=
  match entry.2 with
  | .ok () => []
  | .error cause => (RoundFailure.emission entry.1.target entry.1.origin cause).diagnostics m

/-- A report that also counts the companions that were put out and those that were not. -/
def countEmissions (report : Report) (results : List (Except EmissionFault Unit)) : Report :=
  { report with
    emitted := report.emitted + results.countP Except.isOk
    emissionFailures := report.emissionFailures + results.countP fun result => !result.isOk }

lemma countEmissions_cons (report : Report) (result : Except EmissionFault Unit)
    (results : List (Except EmissionFault Unit)) :
    countEmissions report (result :: results) =
      countEmissions (countEmissions report [result]) results := by
  cases result <;> simp [countEmissions, List.countP_cons, Except.isOk, Except.toBool,
    Nat.add_assoc, Nat.add_comm 1]

/-- Every companion is counted once. -/
lemma countEmissions_total (report : Report) (results : List (Except EmissionFault Unit)) :
    (countEmissions report results).emitted + (countEmissions report results).emissionFailures =
      report.emitted + report.emissionFailures + results.length := by
  have hlength := List.length_eq_countP_add_countP Except.isOk (l := results)
  simp only [Bool.not_eq_true, Bool.decide_eq_false] at hlength
  simp only [countEmissions]
  omega

lemma recordEmission_report (m : Model) (progress : Progress) (companion : Companion)
    (result : Except EmissionFault Unit) :
    (recordEmission m progress companion result).report =
      countEmissions progress.report [result] := by
  cases result <;> rfl

lemma recordEmissions_report (m : Model) (progress : Progress)
    (entries : List (Companion × Except EmissionFault Unit)) :
    (recordEmissions m progress entries).report =
      countEmissions progress.report (entries.map Prod.snd) := by
  induction entries generalizing progress with
  | nil => rfl
  | cons entry entries ih =>
    rw [recordEmissions, List.foldl_cons, ← recordEmissions, ih, recordEmission_report,
      List.map_cons, ← countEmissions_cons]

lemma recordEmissions_diagnostics (m : Model) (progress : Progress)
    (entries : List (Companion × Except EmissionFault Unit)) :
    (recordEmissions m progress entries).diagnostics.toList =
      progress.diagnostics.toList ++ entries.flatMap (toldOfEmission m) := by
  induction entries generalizing progress with
  | nil => exact (List.append_nil _).symm
  | cons entry entries ih =>
    obtain ⟨companion, result⟩ := entry
    rw [recordEmissions, List.foldl_cons, ← recordEmissions, ih, List.flatMap_cons]
    cases result <;> simp [recordEmission, toldOfEmission, Progress.tell]

/-- Companions are put out first, and what became of them can be recorded afterwards. -/
lemma emitAll_eq [LawfulMonad M] (m : Model) (generate : Generator) (sink : Sink M unit)
    (progress : Progress) (companions : List Companion) :
    emitAll m generate sink progress companions = do
      let results ← emissions generate sink companions
      return recordEmissions m progress (companions.zip results) := by
  induction companions generalizing progress with
  | nil => simp [emitAll, emissions, recordEmissions]
  | cons companion companions ih =>
    rw [emissions_cons, emitAll]
    simp [ih, recordEmissions]

/-! ### Rounds -/

/-- The companions of a round over the given elements. -/
def companionsFor (m : Model) (settings : Settings) (elements : List ElementId) : List Companion :=
  (takeElements m settings elements).targets.companions.toList

/-- The report and the diagnostics of a round, from what becomes of its companions. -/
def settle (m : Model) (settings : Settings) (elements : List ElementId)
    (results : List (Except EmissionFault Unit)) : Report × List Diagnostic :=
  let progress := recordEmissions m (takeElements m settings elements)
    ((companionsFor m settings elements).zip results)
  (progress.report, progress.diagnostics.toList)

/-- A round counts what became of its companions. -/
lemma settle_report {m : Model} {settings : Settings} {elements : List ElementId}
    {results : List (Except EmissionFault Unit)}
    (h : results.length = (companionsFor m settings elements).length) :
    (settle m settings elements results).1 =
      countEmissions (takeElements m settings elements).report results := by
  rw [settle, recordEmissions_report, List.map_snd_zip (Nat.le_of_eq h)]

/-- A round puts out its companions, and all else follows from what becomes of them. -/
lemma run_eq [LawfulMonad M] (m : Model) (settings : Settings) (generate : Generator)
    (sink : Sink M unit) (elements : List ElementId) :
    run m settings generate sink elements =
      settle m settings elements <$>
        emissions generate sink (companionsFor m settings elements) := by
  rw [run, emitAll_eq, map_eq_pure_bind, bind_assoc]
  refine bind_congr fun results => ?_
  rw [pure_bind]
  rfl

end ParcelCompanion.Round
