import ParcelCompanion.Proofs.Model.Coherent
import ParcelCompanion.Proofs.Round.BrokenRules
import ParcelCompanion.Proofs.Round.Elements
import ParcelCompanion.Proofs.Round.Run

/-!
# Verdicts

How a round judges an element depends on the model and the settings alone.  The targets that are
there by then only decide whether an accepted element brings a new one.  So what a round counts and
tells of its elements can be said without the round: by the verdict on each element and by the
targets of the elements before it.
-/

namespace ParcelCompanion

/-! ### Resolved and rejected elements -/

namespace Model

variable {m : Model} {settings : Settings} {id : ElementId}

/-- An element is there, its type counts as one that is there, and that one has a canonical name. -/
def Resolves (m : Model) (id : ElementId) : Prop :=
  ∃ field type name, m.elements[id.index]? = some field ∧ m.CountsAs field.type type ∧
    m.canonicalName type = .ok name

lemma resolves_iff : m.Resolves id ↔ ∃ binding, Round.bindingOf m id = .ok binding := by
  simp only [bindingOf_eq_ok_iff]
  constructor
  · rintro ⟨field, type, name, hfield, htype, hname⟩
    exact ⟨⟨field.name, name⟩, field, type, hfield, htype, hname, rfl⟩
  · rintro ⟨binding, field, type, hfield, htype, hname, -⟩
    exact ⟨field, type, binding.type, hfield, htype, hname⟩

/-- An element resolves, but breaks rules. -/
def Rejects (m : Model) (settings : Settings) (id : ElementId) : Prop :=
  m.Resolves id ∧ m.brokenRules settings id ≠ []

/-- Rules are only broken by elements that are there and enclosed. -/
lemma exists_violations (h : m.brokenRules settings id ≠ []) :
    ∃ found, m.violations settings id = .ok found := by
  unfold brokenRules at h
  split at h
  · exact absurd rfl h
  · next field hfield =>
    split at h
    · exact absurd rfl h
    · next enclosing henclosing =>
      exact ⟨_, violations_eq_ok_iff.mpr ⟨field, enclosing, hfield, henclosing, rfl⟩⟩

/-- The violations of an element are those of the rules that it breaks. -/
lemma length_of_violations {found : List Violation} (h : m.violations settings id = .ok found) :
    found.length = (m.brokenRules settings id).length := by
  obtain ⟨field, enclosing, hfield, henclosing, rfl⟩ := violations_eq_ok_iff.mp h
  rw [brokenRules_eq hfield henclosing, length_violationsOf]

/-- The rules can be checked for every element of a coherent model. -/
lemma Linked.exists_violations {strict : Prop} (h : m.Linked strict) {field : Field}
    (hfield : m.elements[id.index]? = some field) :
    ∃ found, m.violations settings id = .ok found := by
  obtain ⟨-, enclosing, henclosing⟩ := h.fields field (Array.mem_of_getElem? hfield)
  exact ⟨_, violations_eq_ok_iff.mpr ⟨field, enclosing, hfield, henclosing, rfl⟩⟩

end Model

namespace Round

open Model

/-! ### Verdicts on elements -/

/-- What becomes of an element, whatever the targets are. -/
inductive Verdict where
  /-- It is added to the companion of the target. -/
  | accepted (target : DeclId) (binding : Binding)
  /-- It breaks rules. -/
  | rejected (violations : List Violation)
  /-- The model cannot answer for it. -/
  | failed (cause : ModelError)

namespace Verdict

/-- The target and the binding of an accepted element. -/
def acceptance? : Verdict → Option (DeclId × Binding)
  | accepted target binding => some (target, binding)
  | _ => none

/-- Whether an element is accepted. -/
def isAccepted : Verdict → Bool
  | accepted .. => true
  | _ => false

/-- Whether an element is rejected. -/
def isRejected : Verdict → Bool
  | rejected _ => true
  | _ => false

/-- Whether the model cannot answer for an element. -/
def isFailed : Verdict → Bool
  | failed _ => true
  | _ => false

end Verdict

/-- The verdict on an element. -/
def verdict (m : Model) (settings : Settings) (id : ElementId) : Verdict :=
  match bindingOf m id, m.violations settings id with
  | .error cause, _ => .failed cause
  | .ok _, .error cause => .failed cause
  | .ok _, .ok (violation :: violations) => .rejected (violation :: violations)
  | .ok binding, .ok [] =>
    match m.element id with
    | .ok field => .accepted field.enclosing binding
    | .error cause => .failed cause

variable {m : Model} {settings : Settings} {id : ElementId} {targets : Targets} {target : DeclId}
  {binding : Binding}

/-- Acceptance is one of the verdicts. -/
lemma accepted?_eq (m : Model) (settings : Settings) (id : ElementId) :
    m.accepted? settings id = (verdict m settings id).acceptance? := by
  unfold verdict accepted?
  cases bindingOf m id with
  | error cause => rfl
  | ok binding =>
    rcases m.violations settings id with cause | (_ | ⟨violation, violations⟩)
    · rfl
    · cases m.element id <;> rfl
    · rfl

lemma verdict_eq_accepted_iff :
    verdict m settings id = .accepted target binding ↔
      m.accepted? settings id = some (target, binding) := by
  rw [accepted?_eq]
  cases verdict m settings id <;> simp [Verdict.acceptance?]

lemma verdict_eq_rejected_iff {found : List Violation} :
    verdict m settings id = .rejected found ↔
      m.Resolves id ∧ m.violations settings id = .ok found ∧ found ≠ [] := by
  rw [resolves_iff]
  unfold verdict
  cases bindingOf m id with
  | error cause => simp
  | ok binding =>
    rcases m.violations settings id with cause | (_ | ⟨violation, violations⟩)
    · simp
    · cases m.element id <;> simp +contextual [eq_comm]
    · simp only [Verdict.rejected.injEq, Except.ok.injEq, exists_eq', true_and, iff_self_and]
      rintro rfl
      exact List.cons_ne_nil _ _

/-- The verdict rejects the elements that resolve but break rules. -/
lemma isRejected_verdict_iff :
    (verdict m settings id).isRejected = true ↔ m.Rejects settings id := by
  constructor
  · intro h
    cases hverdict : verdict m settings id with
    | rejected found =>
      obtain ⟨hresolves, hfound, hne⟩ := verdict_eq_rejected_iff.mp hverdict
      have hlength := length_of_violations hfound
      exact ⟨hresolves, fun hnil => hne (List.eq_nil_of_length_eq_zero (by simp [hlength, hnil]))⟩
    | accepted target binding => simp [hverdict, Verdict.isRejected] at h
    | failed cause => simp [hverdict, Verdict.isRejected] at h
  · rintro ⟨hresolves, hbroken⟩
    obtain ⟨found, hfound⟩ := exists_violations hbroken
    have hlength := length_of_violations hfound
    have hne : found ≠ [] := fun hnil => hbroken (List.eq_nil_of_length_eq_zero (by
      rw [← hlength, hnil]
      rfl))
    rw [verdict_eq_rejected_iff.mpr ⟨hresolves, hfound, hne⟩]
    rfl

instance : DecidablePred (m.Rejects settings) :=
  fun _ => decidable_of_iff _ isRejected_verdict_iff

/-- The model cannot answer for an element when it does not resolve or is not enclosed. -/
lemma verdict_eq_failed_iff {cause : ModelError} :
    verdict m settings id = .failed cause ↔
      bindingOf m id = .error cause ∨ m.Resolves id ∧ m.violations settings id = .error cause := by
  rw [resolves_iff]
  unfold verdict
  cases bindingOf m id with
  | error cause => simp
  | ok binding =>
    rcases hviolations : m.violations settings id with cause | (_ | ⟨violation, violations⟩)
    · simp
    · obtain ⟨field, -, hfield, -⟩ := violations_eq_ok_iff.mp hviolations
      simp [element_eq_ok_iff.mpr hfield]
    · simp

/-- In a coherent model only elements that do not resolve fail. -/
lemma verdict_eq_failed_iff_of_linked {strict : Prop} (h : m.Linked strict) {cause : ModelError} :
    verdict m settings id = .failed cause ↔ bindingOf m id = .error cause := by
  rw [verdict_eq_failed_iff, or_iff_left]
  rintro ⟨⟨field, -, -, hfield, -⟩, hviolations⟩
  obtain ⟨found, hfound⟩ : ∃ found, m.violations settings id = .ok found :=
    h.exists_violations hfield
  exact nomatch hfound.symm.trans hviolations

/-- An element that breaks rules is rejected, whatever the targets are. -/
lemma judge_of_rejected {found : List Violation} (h : verdict m settings id = .rejected found)
    (targets : Targets) : judge m settings targets id = .ok (.rejected found) := by
  obtain ⟨hresolves, hviolations, hne⟩ := verdict_eq_rejected_iff.mp h
  obtain ⟨binding, hbinding⟩ := resolves_iff.mp hresolves
  obtain ⟨violation, violations, rfl⟩ := List.exists_cons_of_ne_nil hne
  rw [judge, hbinding, hviolations]
  rfl

/-- An element that the model cannot answer for fails, whatever the targets are. -/
lemma judge_of_failed {cause : ModelError} (h : verdict m settings id = .failed cause)
    (targets : Targets) : judge m settings targets id = .error cause := by
  rcases verdict_eq_failed_iff.mp h with hbinding | ⟨hresolves, hviolations⟩
  · rw [judge, hbinding]
    rfl
  · obtain ⟨binding, hbinding⟩ := resolves_iff.mp hresolves
    rw [judge, hbinding, hviolations]
    rfl

/-- An accepted element is added to its target, which may be new. -/
lemma exists_judge_of_accepted (h : verdict m settings id = .accepted target binding)
    (targets : Targets) :
    ∃ isNew companion targets',
      targets.request m settings target = .ok (isNew, companion, targets') ∧
      judge m settings targets id =
        .ok (.accepted binding isNew companion (targets'.addField target binding)) := by
  have haccepted := verdict_eq_accepted_iff.mp h
  obtain ⟨field, enclosing, -, -, -, htarget, -⟩ := accepted?_iff_accepts.mp haccepted
  obtain ⟨isNew, companion, targets', hrequest⟩ := Targets.exists_request targets settings htarget
  refine ⟨isNew, companion, targets', hrequest, ?_⟩
  rw [judge_of_accepted haccepted, hrequest]
  rfl

/-- Whether an element fails does not depend on the targets. -/
lemma judge_eq_error_iff {cause : ModelError} :
    judge m settings targets id = .error cause ↔ verdict m settings id = .failed cause := by
  refine ⟨fun herror => ?_, fun h => judge_of_failed h targets⟩
  cases h : verdict m settings id with
  | accepted target binding =>
    obtain ⟨isNew, companion, targets', -, hjudge⟩ := exists_judge_of_accepted h targets
    exact nomatch hjudge.symm.trans herror
  | rejected violations => exact nomatch (judge_of_rejected h targets).symm.trans herror
  | failed cause' =>
    obtain rfl := Except.error.inj ((judge_of_failed h targets).symm.trans herror)
    rfl

/-! ### Counting elements -/

/-- A report that also counts an element with a verdict. -/
def Verdict.count (report : Report) (verdict : Verdict) : Report :=
  { report with
    elements := report.elements + 1
    accepted := report.accepted + if verdict.isAccepted then 1 else 0
    rejected := report.rejected + if verdict.isRejected then 1 else 0
    failed := report.failed + if verdict.isFailed then 1 else 0 }

lemma countElement_judge (report : Report) (targets : Targets) (id : ElementId) :
    countElement report (judge m settings targets id) =
      (verdict m settings id).count report := by
  cases h : verdict m settings id with
  | accepted target binding =>
    obtain ⟨isNew, companion, targets', -, hjudge⟩ := exists_judge_of_accepted h targets
    rw [hjudge]
    rfl
  | rejected violations =>
    rw [judge_of_rejected h]
    rfl
  | failed cause =>
    rw [judge_of_failed h]
    rfl

/-- A report that also counts several elements. -/
def countElements (m : Model) (settings : Settings) (report : Report)
    (elements : List ElementId) : Report :=
  { report with
    elements := report.elements + elements.length
    accepted := report.accepted + elements.countP fun id => (verdict m settings id).isAccepted
    rejected := report.rejected + elements.countP fun id => (verdict m settings id).isRejected
    failed := report.failed + elements.countP fun id => (verdict m settings id).isFailed }

lemma countElements_cons (report : Report) (id : ElementId) (elements : List ElementId) :
    countElements m settings report (id :: elements) =
      countElements m settings ((verdict m settings id).count report) elements := by
  simp only [countElements, Verdict.count, List.length_cons, List.countP_cons]
  congr 1 <;> omega

lemma foldl_takeElement_report (p : Progress) (elements : List ElementId) :
    (elements.foldl (takeElement m settings) p).report =
      countElements m settings p.report elements := by
  induction elements generalizing p with
  | nil => rfl
  | cons id elements ih =>
    rw [List.foldl_cons, ih, takeElement_report, countElement_judge, countElements_cons]

/-- Before a round puts out its companions, its report counts the verdicts on its elements and the
companions made. -/
lemma takeElements_report (m : Model) (settings : Settings) (elements : List ElementId) :
    (takeElements m settings elements).report =
      countElements m settings { companions := (companionsFor m settings elements).length }
        elements := by
  rw [takeElements, foldl_takeElement_report]
  rfl

/-- Every element has one verdict. -/
lemma countP_verdict (m : Model) (settings : Settings) (elements : List ElementId) :
    elements.countP (fun id => (verdict m settings id).isAccepted) +
        elements.countP (fun id => (verdict m settings id).isRejected) +
      elements.countP (fun id => (verdict m settings id).isFailed) = elements.length := by
  induction elements with
  | nil => rfl
  | cons id elements ih =>
    have hone : ((if (verdict m settings id).isAccepted then 1 else 0) +
        if (verdict m settings id).isRejected then 1 else 0) +
        (if (verdict m settings id).isFailed then 1 else 0) = 1 := by
      cases verdict m settings id <;> rfl
    simp only [List.countP_cons, List.length_cons]
    omega

end Round

end ParcelCompanion
