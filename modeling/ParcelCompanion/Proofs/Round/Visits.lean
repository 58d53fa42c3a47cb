import ParcelCompanion.Proofs.Lists
import ParcelCompanion.Proofs.Round.Targets

/-!
# Visits to the targets

Whoever fills the targets asks for one of them, adds fields to the companion that is answered, and
goes on to the next.  What comes of any sequence of such visits can be told without the positions:
the targets keep one companion for each existing declaration, in the order in which the declarations
were first asked for, and each companion has the fields that were added for its own target.
-/

namespace ParcelCompanion.Targets

variable {m : Model} {settings : Settings} {ids : List DeclId} {fields : DeclId → List Binding}
  {targets : Targets} {id : DeclId}

/-! ### Companions and their fields -/

/-- The companion of a declaration, if there is such a declaration, with the given fields. -/
def companionWith (m : Model) (settings : Settings) (fields : DeclId → List Binding) (id : DeclId) :
    Option Companion :=
  (m.declaration? id).map fun target =>
    { Companion.ofTarget id target (strategyFor m settings target) settings with fields := fields id }

namespace Tracks

/-- What the fields are of a declaration that is no target makes no difference. -/
lemma congr_fields (h : Tracks m settings ids fields targets) {fields' : DeclId → List Binding}
    (hfields : ∀ id ∈ ids, fields' id = fields id) : Tracks m settings ids fields' targets := by
  refine ⟨h.origins, h.positions, fun companion hcompanion => ?_⟩
  obtain ⟨hmade, hold⟩ := h.companions companion hcompanion
  have hid : companion.origin ∈ ids := h.origins ▸ List.mem_map_of_mem hcompanion
  exact ⟨hmade, hold.trans (hfields _ hid).symm⟩

/-- A target that was asked for has its companion. -/
lemma get?_of_mem (h : Tracks m settings ids fields targets) (hid : id ∈ ids) :
    targets.get? id = companionWith m settings fields id := by
  obtain ⟨companion, hmem, hget, rfl⟩ := h.exists_get? hid
  obtain ⟨⟨target, htarget, hmade⟩, hfields⟩ := h.companions companion hmem
  rw [hget, companionWith, htarget, Option.map_some, ← hfields, ← hmade]

/-- Fields that are added to a target one after the other go behind the fields that it has. -/
lemma addFields (h : Tracks m settings ids fields targets) (hid : id ∈ ids)
    (bindings : List Binding) :
    Tracks m settings ids (Function.update fields id (fields id ++ bindings))
      (bindings.foldl (fun targets binding => targets.addField id binding) targets) := by
  induction bindings generalizing fields targets with
  | nil => rwa [List.append_nil, Function.update_eq_self]
  | cons binding bindings ih =>
    have hbinding := ih (h.addField hid binding)
    rwa [Function.update_self, Function.update_idem, List.append_assoc] at hbinding

end Tracks

/-! ### What comes of visits -/

/-- A target is asked for, and fields are added to its companion. -/
structure Visit where
  target : DeclId
  fields : List Binding

/-- Asks for the target and adds the fields, unless there is no such declaration. -/
def visit (m : Model) (settings : Settings) (targets : Targets) (v : Visit) :
    Except ModelError (Bool × Companion) × Targets :=
  match targets.request m settings v.target with
  | .ok (isNew, companion, targets) =>
    (.ok (isNew, companion),
      v.fields.foldl (fun targets binding => targets.addField v.target binding) targets)
  | .error e => (.error e, targets)

/-- Makes visits one after the other, and collects the answers. -/
def visitAll (m : Model) (settings : Settings) :
    Targets → List Visit → List (Except ModelError (Bool × Companion)) × Targets
  | targets, [] => ([], targets)
  | targets, v :: visits =>
    let (answer, targets) := visit m settings targets v
    let (answers, targets) := visitAll m settings targets visits
    (answer :: answers, targets)

/-- The existing declarations that were asked for, in the order in which they were first. -/
def requested (m : Model) (visits : List Visit) : List DeclId :=
  ((visits.map Visit.target).filter fun id => (m.declaration? id).isSome).eraseDups

/-- The fields that were added for a target, in order. -/
def fieldsFor (visits : List Visit) (id : DeclId) : List Binding :=
  (visits.filter fun v => v.target = id).flatMap Visit.fields

/-- The answer to a visit that comes after others: the companion with the fields that were added
before, and whether it is new. -/
def answerTo (m : Model) (settings : Settings) (before : List Visit) (v : Visit) :
    Except ModelError (Bool × Companion) :=
  match companionWith m settings (fieldsFor before) v.target with
  | some companion => .ok (v.target ∉ before.map Visit.target, companion)
  | none => .error (.unknownDeclaration v.target)

variable {before visits : List Visit} {v : Visit} {target : Declaration}

lemma mem_requested_iff :
    id ∈ requested m visits ↔ id ∈ visits.map Visit.target ∧ (m.declaration? id).isSome = true := by
  rw [requested, List.mem_eraseDups, List.mem_filter]

/-- What does not exist does not count as asked for. -/
lemma not_mem_requested (hid : m.declaration? id = none) : id ∉ requested m visits := by
  simp [mem_requested_iff, hid]

lemma requested_concat_of_none (hv : m.declaration? v.target = none) :
    requested m (before ++ [v]) = requested m before := by
  simp [requested, hv]

lemma requested_concat_of_some (hv : m.declaration? v.target = some target) :
    requested m (before ++ [v]) =
      if v.target ∈ requested m before then requested m before
      else requested m before ++ [v.target] := by
  have hfilter : ([v].map Visit.target).filter (fun id => (m.declaration? id).isSome) =
      [v.target] := by
    simp [hv]
  rw [requested, requested, List.map_append, List.filter_append, hfilter, eraseDups_concat]
  simp only [List.mem_eraseDups]

lemma fieldsFor_concat (before : List Visit) (v : Visit) :
    fieldsFor (before ++ [v]) =
      Function.update (fieldsFor before) v.target (fieldsFor before v.target ++ v.fields) := by
  funext other
  by_cases hother : other = v.target
  · subst hother
    simp [fieldsFor]
  · simp [fieldsFor, Function.update_of_ne hother, Ne.symm hother]

lemma fieldsFor_eq_nil (hid : id ∉ visits.map Visit.target) : fieldsFor visits id = [] := by
  rw [fieldsFor, List.filter_eq_nil_iff.mpr, List.flatMap_nil]
  intro v hv heq
  exact hid (List.mem_map.mpr ⟨v, hv, of_decide_eq_true heq⟩)

/-- A visit to a declaration that does not exist fails and leaves the targets as they are. -/
lemma visit_of_none (hget : targets.get? v.target = none) (hv : m.declaration? v.target = none) :
    visit m settings targets v = (.error (.unknownDeclaration v.target), targets) := by
  rw [visit, request, hget, Model.declaration_of_eq_none hv]
  rfl

/-- Targets that take the visits before into account answer one more visit from these, and then take
it into account as well. -/
lemma visit_tracks (h : Tracks m settings (requested m before) (fieldsFor before) targets)
    (v : Visit) :
    (visit m settings targets v).1 = answerTo m settings before v ∧
      Tracks m settings (requested m (before ++ [v])) (fieldsFor (before ++ [v]))
        (visit m settings targets v).2 := by
  cases hv : m.declaration? v.target with
  | none =>
    have hmem : v.target ∉ requested m before := not_mem_requested hv
    rw [visit_of_none (h.get?_eq_none hmem) hv, answerTo, companionWith, hv,
      requested_concat_of_none hv]
    refine ⟨rfl, h.congr_fields fun id hid => ?_⟩
    rw [fieldsFor_concat, Function.update_of_ne fun heq : id = v.target => hmem (heq ▸ hid)]
  | some target =>
    rw [requested_concat_of_some hv, fieldsFor_concat]
    by_cases hmem : v.target ∈ requested m before
    · have hbefore := (mem_requested_iff.mp hmem).1
      have hget := h.get?_of_mem hmem
      rw [if_pos hmem, visit, request, answerTo, hget, companionWith, hv, Option.map_some]
      refine ⟨?_, h.addFields hmem v.fields⟩
      simp only [hbefore, not_true_eq_false, decide_false]
    · have hbefore : v.target ∉ before.map Visit.target := fun hbefore =>
        hmem (mem_requested_iff.mpr ⟨hbefore, by rw [hv]; rfl⟩)
      have hnil := fieldsFor_eq_nil hbefore
      obtain ⟨companion, targets', hrequest, htracks⟩ := h.request_of_not_mem hmem hv hnil
      rcases request_cases hrequest with ⟨hnew, -⟩ | ⟨-, other, hother, hmade, -⟩
      · cases hnew
      obtain rfl := Option.some.inj (hv.symm.trans hother)
      rw [if_neg hmem, visit, hrequest, answerTo, companionWith, hv, Option.map_some, hnil]
      refine ⟨?_, ?_⟩
      · simp only [hbefore, not_false_eq_true, decide_true, hmade]
        rfl
      · have hadded := htracks.addFields (List.mem_append_right _ (List.mem_singleton_self v.target))
          v.fields
        rwa [hnil] at hadded

/-- Targets that take the visits before into account answer every further visit from those before
it, and in the end take all of them into account. -/
lemma visitAll_tracks (h : Tracks m settings (requested m before) (fieldsFor before) targets)
    (visits : List Visit) :
    (visitAll m settings targets visits).1 =
        visits.mapIdx (fun i v => answerTo m settings (before ++ visits.take i) v) ∧
      Tracks m settings (requested m (before ++ visits)) (fieldsFor (before ++ visits))
        (visitAll m settings targets visits).2 := by
  induction visits generalizing before targets with
  | nil =>
    rw [List.append_nil]
    exact ⟨rfl, h⟩
  | cons v visits ih =>
    obtain ⟨hanswer, htracks⟩ := visit_tracks h v
    obtain ⟨hanswers, htracks'⟩ := ih htracks
    have hconcat : before ++ v :: visits = before ++ [v] ++ visits := by simp
    rw [hconcat, List.mapIdx_cons]
    refine ⟨?_, htracks'⟩
    change (visit m settings targets v).1 ::
      (visitAll m settings (visit m settings targets v).2 visits).1 = _
    rw [hanswer, hanswers]
    simp

/-- The targets hold what the visits have made of them. -/
structure Registers (m : Model) (settings : Settings) (visits : List Visit) (targets : Targets) :
    Prop where
  /-- There is one companion for each existing declaration that was asked for. -/
  origins : targets.companions.toList.map Companion.origin = requested m visits
  nodup : (requested m visits).Nodup
  /-- It has the fields that were added for it. -/
  companions : targets.companions.toList =
    (requested m visits).filterMap (companionWith m settings (fieldsFor visits))
  /-- It is found, and nothing else is. -/
  get? : ∀ id, targets.get? id =
    if id ∈ requested m visits then companionWith m settings (fieldsFor visits) id else none
  /-- What does not exist cannot be asked for. -/
  dangling : ∀ v : Visit, m.declaration? v.target = none →
    visit m settings targets v = (.error (.unknownDeclaration v.target), targets)

lemma Tracks.registers
    (h : Tracks m settings (requested m visits) (fieldsFor visits) targets) :
    Registers m settings visits targets where
  origins := h.origins
  nodup := nodup_eraseDups _
  companions := h.companions_eq
  get? id := by
    split
    · next hmem => exact h.get?_of_mem hmem
    · next hmem => exact h.get?_eq_none hmem
  dangling _ hv := visit_of_none (h.get?_eq_none (not_mem_requested hv)) hv

/-- Whatever is asked for and added, every visit is answered as the visits before it determine, and
the targets hold what all of them have made. -/
theorem visitAll_registers (m : Model) (settings : Settings) (visits : List Visit) :
    (visitAll m settings {} visits).1 =
        visits.mapIdx (fun i v => answerTo m settings (visits.take i) v) ∧
      Registers m settings visits (visitAll m settings {} visits).2 := by
  have hnil : Tracks m settings (requested m []) (fieldsFor []) {} := tracks_nil
  obtain ⟨hanswers, htracks⟩ := visitAll_tracks hnil visits
  exact ⟨hanswers, htracks.registers⟩

end ParcelCompanion.Targets
