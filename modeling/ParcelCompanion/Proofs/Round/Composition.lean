import ParcelCompanion.Document.Build
import ParcelCompanion.Output.Memory
import ParcelCompanion.Proofs.Effect
import ParcelCompanion.Proofs.Round.Telling

/-!
# Rounds one after the other

A round takes all of its elements before it puts anything out, and two rounds take turns with that.
They do the same as one round over all of the elements when no target has accepted elements in both:
the companions of the one round are then those of the two, one after the other, and nothing that is
told or counted of an element depends on the other half.
-/

namespace ParcelCompanion.Round

open Model

variable {m : Model} {settings : Settings} {first second : List ElementId}

/-- No target has accepted elements in both lists. -/
def Apart (m : Model) (settings : Settings) (first second : List ElementId) : Prop :=
  ∀ id ∈ first, ∀ other ∈ second, ∀ target binding binding',
    m.Accepts settings id target binding → ¬ m.Accepts settings other target binding'

lemma apart_iff_disjoint :
    Apart m settings first second ↔
      (targetsOf m settings first).Disjoint (targetsOf m settings second) := by
  constructor
  · intro h target hfirst hsecond
    obtain ⟨id, hid, binding, haccepts⟩ := mem_targetsOf.mp hfirst
    obtain ⟨other, hother, binding', haccepts'⟩ := mem_targetsOf.mp hsecond
    exact h id hid other hother target binding binding' haccepts haccepts'
  · intro h id hid other hother target binding binding' haccepts haccepts'
    exact h (mem_targetsOf.mpr ⟨id, hid, binding, haccepts⟩)
      (mem_targetsOf.mpr ⟨other, hother, binding', haccepts'⟩)

/-! ### Companions -/

/-- The companion of a target with the fields that were accepted for it. -/
def companionOf (m : Model) (settings : Settings) (accepted : List (DeclId × Binding))
    (target : DeclId) : Option Companion :=
  (m.declaration? target).map fun d =>
    { Companion.ofTarget target d (Targets.strategyFor m settings d) settings with
      fields := fieldsOf accepted target }

/-- A round has one companion for each target of an accepted element. -/
lemma companionsFor_eq (m : Model) (settings : Settings) (elements : List ElementId) :
    companionsFor m settings elements = (targetsOf m settings elements).eraseDups.filterMap
      (companionOf m settings (elements.filterMap (m.accepted? settings))) :=
  (takeElements_collects m settings elements).companions_eq

/-- A round over two lists of elements without common targets has the companions of a round over the
first list and then those of a round over the second. -/
lemma Apart.companionsFor_append (h : Apart m settings first second) :
    companionsFor m settings (first ++ second) =
      companionsFor m settings first ++ companionsFor m settings second := by
  have hdisjoint := apart_iff_disjoint.mp h
  simp only [companionsFor_eq, targetsOf_append, eraseDups_append_of_disjoint hdisjoint,
    List.filterMap_append]
  congr 1
  · refine List.filterMap_congr fun target htarget => ?_
    have hnil := fieldsOf_eq_nil (hdisjoint (List.mem_eraseDups.mp htarget))
    rw [companionOf, companionOf, fieldsOf_append, hnil, List.append_nil]
  · refine List.filterMap_congr fun target htarget => ?_
    have hnil := fieldsOf_eq_nil (hdisjoint.symm (List.mem_eraseDups.mp htarget))
    rw [companionOf, companionOf, fieldsOf_append, hnil, List.nil_append]

/-! ### What is told -/

/-- What is told of an element only depends on whether its target is among those before it. -/
lemma told_verdict_congr {seen seen' : List DeclId} {id : ElementId}
    (h : ∀ target binding, m.Accepts settings id target binding →
      (target ∈ seen ↔ target ∈ seen')) :
    (verdict m settings id).told m settings seen id =
      (verdict m settings id).told m settings seen' id := by
  cases hverdict : verdict m settings id with
  | accepted target binding =>
    have haccepts := accepted?_iff_accepts.mp (verdict_eq_accepted_iff.mp hverdict)
    rw [Verdict.told, Verdict.told]
    simp only [h target binding haccepts]
  | rejected violations => rfl
  | failed cause => rfl

/-- What a round tells of the elements of two lists without common targets is what a round over the
first list tells of its elements, followed by what a round over the second tells of its. -/
lemma Apart.toldEach_append (h : Apart m settings first second) :
    toldEach m settings {} (first ++ second) =
      toldEach m settings {} first ++ toldEach m settings {} second := by
  simp only [toldEach_eq (collects_nil m settings), List.map_nil, List.nil_append,
    List.mapIdx_append]
  congr 1
  · refine List.mapIdx_eq_mapIdx_iff.mpr fun i hi => ?_
    rw [List.take_append_of_le_length (Nat.le_of_lt hi)]
  -- behind the first list its targets are seen too, but no element of the second list has them
  · refine List.mapIdx_eq_mapIdx_iff.mpr fun i hi => ?_
    rw [Nat.add_comm, List.take_length_add_append, targetsOf_append]
    refine told_verdict_congr fun target binding haccepts => ?_
    have hsecond : target ∈ targetsOf m settings second :=
      mem_targetsOf.mpr ⟨_, List.getElem_mem hi, binding, haccepts⟩
    have hfirst : target ∉ targetsOf m settings first := fun hfirst =>
      apart_iff_disjoint.mp h hfirst hsecond
    rw [List.mem_append, or_iff_right hfirst]

/-! ### Reports -/

/-- Two reports together, field by field. -/
instance : Add Report where
  add first second := {
    elements := first.elements + second.elements
    accepted := first.accepted + second.accepted
    rejected := first.rejected + second.rejected
    failed := first.failed + second.failed
    companions := first.companions + second.companions
    emitted := first.emitted + second.emitted
    emissionFailures := first.emissionFailures + second.emissionFailures }

/-- Reports over the elements of both lists add up. -/
lemma countElements_append (report report' : Report) (first second : List ElementId) :
    countElements m settings (report + report') (first ++ second) =
      countElements m settings report first + countElements m settings report' second := by
  unfold countElements
  rw [List.length_append, List.countP_append, List.countP_append, List.countP_append]
  refine Report.mk.injEq .. ▸ ⟨?_, ?_, ?_, ?_, rfl, rfl, rfl⟩
  all_goals exact Nat.add_add_add_comm ..

/-- Reports over what becomes of the companions of both lists add up. -/
lemma countEmissions_append (report report' : Report)
    (results results' : List (Except EmissionFault Unit)) :
    countEmissions (report + report') (results ++ results') =
      countEmissions report results + countEmissions report' results' := by
  unfold countEmissions
  rw [List.countP_append, List.countP_append]
  refine Report.mk.injEq .. ▸ ⟨rfl, rfl, rfl, rfl, rfl, ?_, ?_⟩
  all_goals exact Nat.add_add_add_comm ..

/-! ### Settled rounds -/

section Settle

variable {results results' : List (Except EmissionFault Unit)}

/-- The report of a settled round over two lists of elements without common targets is the sum of
the reports of settled rounds over each. -/
lemma Apart.settle_report_append (h : Apart m settings first second)
    (hresults : results.length = (companionsFor m settings first).length)
    (hresults' : results'.length = (companionsFor m settings second).length) :
    (settle m settings (first ++ second) (results ++ results')).1 =
      (settle m settings first results).1 + (settle m settings second results').1 := by
  have hcompanions := h.companionsFor_append
  have hlength : (results ++ results').length =
      (companionsFor m settings (first ++ second)).length := by
    rw [hcompanions, List.length_append, List.length_append, hresults, hresults']
  have hmade : ({ companions := (companionsFor m settings (first ++ second)).length } : Report) =
      { companions := (companionsFor m settings first).length } +
        { companions := (companionsFor m settings second).length } := by
    rw [hcompanions, List.length_append]
    rfl
  rw [settle_report hlength, settle_report hresults, settle_report hresults', takeElements_report,
    takeElements_report, takeElements_report, hmade, countElements_append, countEmissions_append]

/-- Settled rounds over two lists of elements without common targets tell together what a settled
round over both lists tells, and once more that a round starts. -/
lemma Apart.settle_diagnostics_append (h : Apart m settings first second)
    (hresults : results.length = (companionsFor m settings first).length) :
    ((settle m settings first results).2 ++ (settle m settings second results').2).Perm
      (startNote :: (settle m settings (first ++ second) (results ++ results')).2) := by
  rw [settle_diagnostics, settle_diagnostics, settle_diagnostics, h.toldEach_append,
    h.companionsFor_append, List.flatten_append, List.zip_append hresults.symm,
    List.flatMap_append, List.perm_iff_count]
  intro told
  simp only [List.count_append, List.count_cons]
  omega

end Settle

/-- One round does as two do together: the counts add up, and the two tell the same but for the
order and for one more start. -/
structure Joins (whole first second : Report × List Diagnostic) : Prop where
  report : whole.1 = first.1 + second.1
  diagnostics : (first.2 ++ second.2).Perm (startNote :: whole.2)

/-! ### Whole rounds -/

/-- What becomes of companions that are put out behind others. -/
def emissionsOfBoth {m : Type → Type} [Monad m] {unit : Type} (generate : Generator)
    (sink : Sink m unit) (companions companions' : List Companion) :
    m (List (Except EmissionFault Unit) × List (Except EmissionFault Unit)) := do
  let results ← emissions generate sink companions
  let results' ← emissions generate sink companions'
  return (results, results')

lemma yields_emissionsOfBoth {M : Type → Type} [Monad M] [LawfulMonad M] {unit : Type}
    (generate : Generator) (sink : Sink M unit) (companions companions' : List Companion) :
    Yields (fun both => both.1.length = companions.length ∧ both.2.length = companions'.length)
      (emissionsOfBoth generate sink companions companions') :=
  (yields_mapM_length _ companions).pair (yields_mapM_length _ companions')

/-- A round over two lists of elements without common targets is a round over the first list
followed by a round over the second, whatever makes the texts of the companions and whatever effects
the sink has: the same companions are put out in the same order with the same effects, the reports
add up, and the two rounds tell what the one does, and once more that they start. -/
theorem run_append {M : Type → Type} [Monad M] [LawfulMonad M] {unit : Type}
    (generate : Generator) (sink : Sink M unit) (h : Apart m settings first second) :
    companionsFor m settings (first ++ second) =
        companionsFor m settings first ++ companionsFor m settings second ∧
      Coupled (fun whole parts => Joins whole parts.1 parts.2)
        (run m settings generate sink (first ++ second))
        (do
          let first ← run m settings generate sink first
          let second ← run m settings generate sink second
          return (first, second)) := by
  have hwhole : run m settings generate sink (first ++ second) =
      (fun results => settle m settings (first ++ second) (results.1 ++ results.2)) <$>
        emissionsOfBoth generate sink (companionsFor m settings first)
          (companionsFor m settings second) := by
    rw [run_eq, h.companionsFor_append, emissions, List.mapM_append]
    simp [emissionsOfBoth, emissions]
  have hparts : (do
      let first ← run m settings generate sink first
      let second ← run m settings generate sink second
      return (first, second)) =
      (fun results => (settle m settings first results.1, settle m settings second results.2)) <$>
        emissionsOfBoth generate sink (companionsFor m settings first)
          (companionsFor m settings second) := by
    simp [run_eq, emissionsOfBoth]
  rw [hwhole, hparts]
  refine ⟨h.companionsFor_append, ?_⟩
  exact (yields_emissionsOfBoth generate sink _ _).coupled fun results hresults =>
    ⟨h.settle_report_append hresults.1 hresults.2, h.settle_diagnostics_append hresults.1⟩

/-- Two classes whose companions have the same name. -/
def siblings : Document where
  declarations := [
    { name := "app.Outer.Inner"
      package := some "app"
      fields := [{ name := "left", type := "int" }] },
    { name := "app.Outer$Inner"
      fields := [{ name := "right", type := "int" }] }]

/-- A generator whose texts are the names of the targets. -/
def placard : Generator := fun companion =>
  .ok companion.target

/-- The companions of `app.Outer.Inner` and `app.Outer$Inner` have the same name.  That of the
latter is refused, in one round over the fields of both as in the second of two rounds. -/
theorem siblings_append : ∃ m, siblings.build = .ok m ∧
    Apart m {} [⟨0⟩, ⟨0⟩] [⟨1⟩, ⟨9⟩] ∧
    let round := run m {} placard UnitStore.sink
    let whole := (round [⟨0⟩, ⟨0⟩, ⟨1⟩, ⟨9⟩]).run {}
    let parts := (do
      let first ← round [⟨0⟩, ⟨0⟩]
      let second ← round [⟨1⟩, ⟨9⟩]
      return (first, second)).run {}
    whole.1.1 = ⟨4, 3, 0, 1, 2, 1, 1⟩ ∧ Joins whole.1 parts.1.1 parts.1.2 ∧
      whole.2 = parts.2 := by
  obtain ⟨m, hbuild, hmodel⟩ : ∃ m, siblings.build = .ok m ∧
      (targetsOf m {} [⟨0⟩, ⟨0⟩], targetsOf m {} [⟨1⟩, ⟨9⟩],
        ((run m {} placard UnitStore.sink [⟨0⟩, ⟨0⟩, ⟨1⟩, ⟨9⟩]).run {}).1.1) =
          ([⟨11⟩, ⟨11⟩], [⟨12⟩], ⟨4, 3, 0, 1, 2, 1, 1⟩) :=
    exists_ok_of_toOption_map (by decide +kernel)
  obtain ⟨hfirst, hmodel⟩ := Prod.mk.inj hmodel
  obtain ⟨hsecond, hreport⟩ := Prod.mk.inj hmodel
  have hapart : Apart m {} [⟨0⟩, ⟨0⟩] [⟨1⟩, ⟨9⟩] := by
    rw [apart_iff_disjoint, hfirst, hsecond]
    simp
  obtain ⟨-, hcoupled⟩ := run_append placard UnitStore.sink hapart
  exact ⟨m, hbuild, hapart, hreport, hcoupled.run {}⟩

end ParcelCompanion.Round
