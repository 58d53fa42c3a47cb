import ParcelCompanion.Proofs.Round.Verdict

/-!
# What is told of elements

A round tells of each element when it is taken.  Of an accepted element it tells its name and type,
after a note on its target if no element before it was accepted for the same target.  So what is
told of an element follows from its verdict and the targets before it.
-/

namespace ParcelCompanion.Round

open Model

variable {m : Model} {settings : Settings} {accepted : List (DeclId × Binding)} {targets : Targets}

/-- The targets of the accepted elements, in order and with repetitions. -/
def targetsOf (m : Model) (settings : Settings) (elements : List ElementId) : List DeclId :=
  (elements.filterMap (m.accepted? settings)).map Prod.fst

lemma targetsOf_cons (id : ElementId) (elements : List ElementId) :
    targetsOf m settings (id :: elements) =
      (m.accepted? settings id).toList.map Prod.fst ++ targetsOf m settings elements := by
  cases h : m.accepted? settings id <;> simp [targetsOf, h]

lemma targetsOf_append (first second : List ElementId) :
    targetsOf m settings (first ++ second) =
      targetsOf m settings first ++ targetsOf m settings second := by
  rw [targetsOf, List.filterMap_append, List.map_append]
  rfl

/-- The targets are those of accepted elements. -/
lemma mem_targetsOf {target : DeclId} {elements : List ElementId} :
    target ∈ targetsOf m settings elements ↔
      ∃ id ∈ elements, ∃ binding, m.Accepts settings id target binding := by
  simp only [targetsOf, List.mem_map, List.mem_filterMap, Prod.exists, exists_and_right,
    exists_eq_right, accepted?_iff_accepts]
  exact ⟨fun ⟨binding, id, hid, h⟩ => ⟨id, hid, binding, h⟩,
    fun ⟨id, hid, binding, h⟩ => ⟨binding, id, hid, h⟩⟩

/-- The note on a target, which is there. -/
def noteOn (m : Model) (settings : Settings) (target : DeclId) : Option Diagnostic :=
  (m.declaration? target).map fun d =>
    targetNote (Companion.ofTarget target d (Targets.strategyFor m settings d) settings)

lemma tell_diagnostics (progress : Progress) (diagnostics : List Diagnostic) :
    (progress.tell diagnostics).diagnostics.toList =
      progress.diagnostics.toList ++ diagnostics := by
  simp [Progress.tell]

/-- What is told of an element with a verdict, behind elements with the given targets. -/
def Verdict.told (m : Model) (settings : Settings) (seen : List DeclId) (id : ElementId) :
    Verdict → List Diagnostic
  | .accepted target binding =>
    (if target ∈ seen then [] else (noteOn m settings target).toList) ++ [fieldNote binding]
  | .rejected violations => (RoundFailure.rejected id violations).diagnostics m
  | .failed cause => (RoundFailure.failed id settings.markerName cause).diagnostics m

/-- Asking for a target brings a note when the target is new. -/
lemma noteOn_of_request (h : Collects m settings accepted targets) {target : DeclId}
    {isNew : Bool} {companion : Companion} {targets' : Targets}
    (hrequest : targets.request m settings target = .ok (isNew, companion, targets')) :
    (if isNew then [targetNote companion] else []) =
      if target ∈ accepted.map Prod.fst then [] else (noteOn m settings target).toList := by
  by_cases hmem : target ∈ accepted.map Prod.fst
  · obtain ⟨old, hold⟩ := Targets.Tracks.request_of_mem h (List.mem_eraseDups.mpr hmem)
    obtain ⟨rfl, -⟩ := Prod.mk.inj (Except.ok.inj (hold.symm.trans hrequest))
    rw [if_pos hmem]
    rfl
  · rw [if_neg hmem]
    rcases Targets.request_cases hrequest with ⟨-, hget, -⟩ | ⟨rfl, d, hd, rfl, -⟩
    · have hnone := Targets.Tracks.get?_eq_none h (mt List.mem_eraseDups.mp hmem)
      exact nomatch hnone.symm.trans hget
    · rw [noteOn, hd]
      rfl

/-- What a round tells of an element follows from its verdict and the collected targets. -/
lemma told_eq (h : Collects m settings accepted targets) (id : ElementId) :
    told m settings targets id =
      (verdict m settings id).told m settings (accepted.map Prod.fst) id := by
  unfold told takeElement
  cases hverdict : verdict m settings id with
  | rejected violations =>
    rw [judge_of_rejected hverdict]
    exact tell_diagnostics _ _
  | failed cause =>
    rw [judge_of_failed hverdict]
    exact tell_diagnostics _ _
  | accepted target binding =>
    obtain ⟨isNew, companion, targets', hrequest, hjudge⟩ :=
      exists_judge_of_accepted hverdict targets
    rw [hjudge, Verdict.told, ← noteOn_of_request h hrequest]
    exact tell_diagnostics _ _

/-- Before the first element nothing is collected. -/
lemma collects_nil (m : Model) (settings : Settings) : Collects m settings [] {} :=
  Targets.tracks_nil

/-- The targets after an element collect it if it is accepted. -/
lemma Collects.targetsAfter (h : Collects m settings accepted targets) (id : ElementId) :
    Collects m settings (accepted ++ (m.accepted? settings id).toList)
      (targetsAfter m settings targets id) :=
  takeElement_collects
    (show Collects m settings accepted ({ targets } : Progress).targets from h) id

/-- What a round tells of its elements follows from their verdicts. -/
lemma toldEach_eq (h : Collects m settings accepted targets) (elements : List ElementId) :
    toldEach m settings targets elements = elements.mapIdx fun i id =>
      (verdict m settings id).told m settings
        (accepted.map Prod.fst ++ targetsOf m settings (elements.take i)) id := by
  induction elements generalizing accepted targets with
  | nil => rfl
  | cons id elements ih =>
    rw [toldEach, told_eq h, ih (h.targetsAfter id), List.mapIdx_cons]
    simp only [List.take_succ_cons, targetsOf_cons, List.map_append, List.append_assoc]
    rw [List.take_zero]
    simp [targetsOf]

end ParcelCompanion.Round
