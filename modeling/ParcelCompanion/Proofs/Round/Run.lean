import ParcelCompanion.Proofs.Round.Acceptance
import ParcelCompanion.Proofs.Round.Targets

/-!
# What a round puts out

A round takes its elements one by one and puts out one companion for each target of an accepted
element.  The invariant of the loop relates the targets to the list of what was accepted so far:
the targets in the order of their first appearance, and for each of them its own fields in order.
-/

namespace ParcelCompanion.Round

open Model

variable {m : Model} {settings : Settings} {accepted : List (DeclId × Binding)}
  {targets : Targets} {id : ElementId} {target : DeclId} {binding : Binding}

/-! ### The invariant -/

/-- The fields that were accepted for a target, in order. -/
def fieldsOf (accepted : List (DeclId × Binding)) (target : DeclId) : List Binding :=
  (accepted.filter fun entry => entry.1 = target).map Prod.snd

/-- The targets are those of the accepted fields, in the order of their first appearance, each with
its own fields. -/
def Collects (m : Model) (settings : Settings) (accepted : List (DeclId × Binding))
    (targets : Targets) : Prop :=
  targets.Tracks m settings (accepted.map Prod.fst).eraseDups (fieldsOf accepted)

/-- A target without accepted elements has no fields. -/
lemma fieldsOf_eq_nil (h : target ∉ accepted.map Prod.fst) : fieldsOf accepted target = [] := by
  rw [fieldsOf, List.map_eq_nil_iff, List.filter_eq_nil_iff]
  intro entry hentry heq
  exact h (List.mem_map.mpr ⟨entry, hentry, by simpa using heq⟩)

lemma fieldsOf_append (accepted accepted' : List (DeclId × Binding)) (target : DeclId) :
    fieldsOf (accepted ++ accepted') target =
      fieldsOf accepted target ++ fieldsOf accepted' target := by
  rw [fieldsOf, List.filter_append, List.map_append]
  rfl

lemma fieldsOf_concat (accepted : List (DeclId × Binding)) (target : DeclId) (binding : Binding) :
    fieldsOf (accepted ++ [(target, binding)]) =
      Function.update (fieldsOf accepted) target (fieldsOf accepted target ++ [binding]) := by
  funext other
  by_cases hother : other = target
  · subst hother
    simp [fieldsOf]
  · simp [fieldsOf, Function.update_of_ne hother, Ne.symm hother]

/-- Asking for a target and adding a field to it collects one more accepted field. -/
lemma Collects.request (h : Collects m settings accepted targets) {enclosing : Declaration}
    (htarget : m.declaration? target = some enclosing) (binding : Binding) :
    ∃ isNew companion targets',
      targets.request m settings target = .ok (isNew, companion, targets') ∧
        Collects m settings (accepted ++ [(target, binding)])
          (targets'.addField target binding) := by
  have hids : ((accepted ++ [(target, binding)]).map Prod.fst).eraseDups =
      if target ∈ accepted.map Prod.fst then (accepted.map Prod.fst).eraseDups
      else (accepted.map Prod.fst).eraseDups ++ [target] := by
    rw [List.map_append]
    exact eraseDups_concat _ _
  unfold Collects
  rw [fieldsOf_concat, hids]
  by_cases hmem : target ∈ accepted.map Prod.fst
  · have hmem' : target ∈ (accepted.map Prod.fst).eraseDups := List.mem_eraseDups.mpr hmem
    obtain ⟨companion, hrequest⟩ := Targets.Tracks.request_of_mem h hmem'
    rw [if_pos hmem]
    exact ⟨false, companion, targets, hrequest, Targets.Tracks.addField h hmem' binding⟩
  · have hmem' : target ∉ (accepted.map Prod.fst).eraseDups := List.mem_eraseDups.not.mpr hmem
    obtain ⟨companion, targets', hrequest, htracks⟩ :=
      Targets.Tracks.request_of_not_mem h hmem' htarget (fieldsOf_eq_nil hmem)
    rw [if_neg hmem]
    exact ⟨true, companion, targets', hrequest,
      htracks.addField (List.mem_append_right _ (List.mem_singleton_self _)) binding⟩

/-! ### One element -/

/-- An element that is accepted is added to its target, whatever the targets are. -/
lemma judge_of_accepted (h : m.accepted? settings id = some (target, binding)) (targets : Targets) :
    judge m settings targets id = do
      let (isNew, companion, targets) ← targets.request m settings target
      return .accepted binding isNew companion (targets.addField target binding) := by
  obtain ⟨hbinding, hviolations, field, hfield, rfl⟩ := accepted?_eq_some_iff.mp h
  rw [judge, hbinding, hviolations, hfield]
  rfl

/-- An element that is not accepted leaves no trace in the targets. -/
lemma judge_of_not_accepted (h : m.accepted? settings id = none) (targets : Targets) :
    (∃ e, judge m settings targets id = .error e) ∨
      ∃ violations, judge m settings targets id = .ok (.rejected violations) := by
  rw [judge]
  cases hbinding : bindingOf m id with
  | error e => exact Or.inl ⟨e, rfl⟩
  | ok binding =>
    cases hviolations : m.violations settings id with
    | error e => exact Or.inl ⟨e, rfl⟩
    | ok violations =>
      cases violations with
      | cons violation violations => exact Or.inr ⟨_, rfl⟩
      | nil =>
        obtain ⟨field, -, hfield, -⟩ := violations_eq_ok_iff.mp hviolations
        have hsome := accepted?_eq_some_iff.mpr
          ⟨hbinding, hviolations, field, element_eq_ok_iff.mpr hfield, rfl⟩
        exact nomatch h.symm.trans hsome

/-- Whether an element is accepted does not depend on the targets. -/
lemma judge_accepts_iff :
    (∃ binding isNew companion targets',
      judge m settings targets id = .ok (.accepted binding isNew companion targets')) ↔
        ∃ target binding, m.accepted? settings id = some (target, binding) := by
  constructor
  · rintro ⟨binding, isNew, companion, targets', hjudge⟩
    cases haccepted : m.accepted? settings id with
    | some entry => exact ⟨entry.1, entry.2, rfl⟩
    | none =>
      rcases judge_of_not_accepted haccepted targets with ⟨e, hother⟩ | ⟨found, hother⟩ <;>
        exact nomatch hjudge.symm.trans hother
  · rintro ⟨target, binding, haccepted⟩
    obtain ⟨field, enclosing, -, -, -, htarget, -⟩ := accepted?_iff_accepts.mp haccepted
    obtain ⟨isNew, companion, targets', hrequest⟩ :=
      Targets.exists_request targets settings htarget
    refine ⟨binding, isNew, companion, targets'.addField target binding, ?_⟩
    rw [judge_of_accepted haccepted, hrequest]
    rfl

/-- Taking an element collects it if it is accepted, and nothing otherwise. -/
lemma takeElement_collects {progress : Progress} (h : Collects m settings accepted progress.targets)
    (id : ElementId) :
    Collects m settings (accepted ++ (m.accepted? settings id).toList)
      (takeElement m settings progress id).targets := by
  cases haccepted : m.accepted? settings id with
  | none =>
    rw [Option.toList_none, List.append_nil, takeElement]
    rcases judge_of_not_accepted haccepted progress.targets with ⟨e, hjudge⟩ | ⟨found, hjudge⟩ <;>
      rw [hjudge] <;> exact h
  | some entry =>
    obtain ⟨target, binding⟩ := entry
    obtain ⟨field, enclosing, -, -, -, htarget, -⟩ := accepted?_iff_accepts.mp haccepted
    obtain ⟨isNew, companion, targets', hrequest, hcollects⟩ := h.request htarget binding
    rw [takeElement, judge_of_accepted haccepted, hrequest]
    exact hcollects

/-! ### All elements -/

/-- Taking elements collects those that are accepted, in order. -/
lemma foldl_takeElement_collects {progress : Progress}
    (h : Collects m settings accepted progress.targets) (elements : List ElementId) :
    Collects m settings (accepted ++ elements.filterMap (m.accepted? settings))
      (elements.foldl (takeElement m settings) progress).targets := by
  induction elements generalizing accepted progress with
  | nil => simpa using h
  | cons id elements ih =>
    have hcons : (id :: elements).filterMap (m.accepted? settings) =
        (m.accepted? settings id).toList ++ elements.filterMap (m.accepted? settings) := by
      cases hid : m.accepted? settings id <;> simp [hid]
    have hstep := ih (takeElement_collects h id)
    rw [List.append_assoc, ← hcons] at hstep
    exact hstep

/-- The elements of a round are collected from nothing. -/
lemma takeElements_collects (m : Model) (settings : Settings) (elements : List ElementId) :
    Collects m settings (elements.filterMap (m.accepted? settings))
      (takeElements m settings elements).targets := by
  have hnil : Collects m settings [] (({} : Progress).tell [startNote]).targets :=
    Targets.tracks_nil
  exact foldl_takeElement_collects hnil elements

/-- The companions that a round puts out are one for each target of an accepted element, in the
order of their first accepted elements.  Each has the accepted fields of its target in the order of
the elements, and goes with a target that is a subtype of the serializable interface exactly when it
is an injector.  Whatever makes their texts and takes them, they are put out one after the other. -/
theorem run_emits_collected (m : Model) (settings : Settings) (elements : List ElementId) :
    ∃ (accept : ElementId → Option (DeclId × Binding)) (companions : List Companion),
      (∀ id target binding,
        accept id = some (target, binding) ↔ m.Accepts settings id target binding) ∧
      (∀ targets id,
        (∃ binding isNew companion targets',
          judge m settings targets id = .ok (.accepted binding isNew companion targets')) ↔
            ∃ target binding, accept id = some (target, binding)) ∧
      companions.map Companion.origin = ((elements.filterMap accept).map Prod.fst).eraseDups ∧
      (∀ companion ∈ companions,
        companion.fields = ((elements.filterMap accept).filter
          fun entry => entry.1 = companion.origin).map Prod.snd ∧
        ∃ target, m.declaration? companion.origin = some target ∧
          companion.target = target.name ∧ companion.package = target.package ∧
          companion.className = Companion.classNameFor target.package target.name
            (companion.strategy.suffix settings) ∧
          (companion.strategy = .injector ↔
            m.isSubtype target.selfType settings.serializable = true)) ∧
      ∀ {M : Type → Type} [Monad M] {unit : Type} (generate : Generator) (sink : Sink M unit),
        Round.run m settings generate sink elements = do
          let progress ← emitAll m generate sink (takeElements m settings elements) companions
          return (progress.report, progress.diagnostics.toList) := by
  have hcollects := takeElements_collects m settings elements
  refine ⟨m.accepted? settings, (takeElements m settings elements).targets.companions.toList,
    fun _ _ _ => accepted?_iff_accepts, fun targets id => judge_accepts_iff, hcollects.origins,
    fun companion hcompanion => ?_, fun _ _ => rfl⟩
  obtain ⟨⟨target, htarget, hmade⟩, hfields⟩ := hcollects.companions companion hcompanion
  have hstrategy : companion.strategy = Targets.strategyFor m settings target :=
    congrArg Companion.strategy hmade
  refine ⟨hfields, target, htarget, congrArg Companion.target hmade,
    congrArg Companion.package hmade, ?_, ?_⟩
  · rw [hstrategy]
    exact congrArg Companion.className hmade
  · rw [hstrategy]
    exact Targets.strategyFor_eq_injector_iff

end ParcelCompanion.Round
