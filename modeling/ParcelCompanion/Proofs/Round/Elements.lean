import ParcelCompanion.Proofs.Round.Results

/-!
# What becomes of elements

What an element does to the targets of a round and what is told of it depend on the targets alone,
and what is counted depends on how it is judged.  A run over elements is put together from these.
-/

namespace ParcelCompanion.Round

variable {m : Model} {settings : Settings}

/-! ### One element -/

/-- What a round tells of an element. -/
def told (m : Model) (settings : Settings) (targets : Targets) (id : ElementId) :
    List Diagnostic :=
  (takeElement m settings { targets } id).diagnostics.toList

/-- The targets of a round after an element. -/
def targetsAfter (m : Model) (settings : Settings) (targets : Targets) (id : ElementId) :
    Targets :=
  (takeElement m settings { targets } id).targets

/-- A report that also counts an element. -/
def countElement (report : Report) (outcome : Except ModelError Outcome) : Report :=
  let report := { report with elements := report.elements + 1 }
  match outcome with
  | .ok (.accepted ..) => { report with accepted := report.accepted + 1 }
  | .ok (.rejected _) => { report with rejected := report.rejected + 1 }
  | .error _ => { report with failed := report.failed + 1 }

lemma takeElement_targets (p : Progress) (id : ElementId) :
    (takeElement m settings p id).targets = targetsAfter m settings p.targets id := by
  unfold targetsAfter takeElement
  cases judge m settings p.targets id with
  | error cause => rfl
  | ok outcome => cases outcome <;> rfl

lemma takeElement_report (p : Progress) (id : ElementId) :
    (takeElement m settings p id).report =
      countElement p.report (judge m settings p.targets id) := by
  unfold takeElement
  cases judge m settings p.targets id with
  | error cause => rfl
  | ok outcome => cases outcome <;> rfl

lemma takeElement_diagnostics (p : Progress) (id : ElementId) :
    (takeElement m settings p id).diagnostics.toList =
      p.diagnostics.toList ++ told m settings p.targets id := by
  unfold told takeElement
  cases judge m settings p.targets id with
  | error cause => simp [Progress.tell]
  | ok outcome => cases outcome <;> simp [Progress.tell]

/-- Elements are not counted as companions. -/
lemma countElement_emitted (report : Report) (outcome : Except ModelError Outcome) :
    (countElement report outcome).emitted = report.emitted ∧
      (countElement report outcome).emissionFailures = report.emissionFailures := by
  rcases outcome with cause | ⟨field, isNew, companion, targets⟩ | violations <;> exact ⟨rfl, rfl⟩

/-! ### All elements -/

/-- What a round tells of each of its elements. -/
def toldEach (m : Model) (settings : Settings) : Targets → List ElementId → List (List Diagnostic)
  | _, [] => []
  | targets, id :: elements =>
    told m settings targets id :: toldEach m settings (targetsAfter m settings targets id) elements

lemma foldl_takeElement_diagnostics (p : Progress) (elements : List ElementId) :
    (elements.foldl (takeElement m settings) p).diagnostics.toList =
      p.diagnostics.toList ++ (toldEach m settings p.targets elements).flatten := by
  induction elements generalizing p with
  | nil => exact (List.append_nil _).symm
  | cons id elements ih =>
    rw [List.foldl_cons, ih, takeElement_diagnostics, takeElement_targets, toldEach,
      List.flatten_cons, List.append_assoc]

lemma foldl_takeElement_emitted (p : Progress) (elements : List ElementId) :
    (elements.foldl (takeElement m settings) p).report.emitted = p.report.emitted ∧
      (elements.foldl (takeElement m settings) p).report.emissionFailures =
        p.report.emissionFailures := by
  induction elements generalizing p with
  | nil => exact ⟨rfl, rfl⟩
  | cons id elements ih =>
    rw [List.foldl_cons, (ih _).1, (ih _).2, takeElement_report]
    exact countElement_emitted _ _

/-! ### The whole round -/

/-- A round starts without companions to count. -/
lemma takeElements_emitted (m : Model) (settings : Settings) (elements : List ElementId) :
    (takeElements m settings elements).report.emitted = 0 ∧
      (takeElements m settings elements).report.emissionFailures = 0 :=
  foldl_takeElement_emitted _ elements

lemma takeElements_diagnostics (m : Model) (settings : Settings) (elements : List ElementId) :
    (takeElements m settings elements).diagnostics.toList =
      startNote :: (toldEach m settings {} elements).flatten :=
  foldl_takeElement_diagnostics _ elements

/-- A round tells of its elements first, and then of its companions. -/
lemma settle_diagnostics (m : Model) (settings : Settings) (elements : List ElementId)
    (results : List (Except EmissionFault Unit)) :
    (settle m settings elements results).2 =
      startNote :: ((toldEach m settings {} elements).flatten ++
        ((companionsFor m settings elements).zip results).flatMap (toldOfEmission m)) := by
  rw [settle, recordEmissions_diagnostics, takeElements_diagnostics, List.cons_append]

end ParcelCompanion.Round
