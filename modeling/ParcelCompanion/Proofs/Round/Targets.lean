import Mathlib.Logic.Function.Basic
import ParcelCompanion.Proofs.Model.Extends
import ParcelCompanion.Round.Targets

/-!
# The targets of a round

The companions of a round stand in the order in which their targets were first asked for, and the
positions take each target to its companion.  `Tracks` relates them to a list of targets and to the
fields that each target has by now; asking for a target and adding a field to it keep the relation.
-/

namespace ParcelCompanion.Targets

variable {m : Model} {settings : Settings} {ids : List DeclId} {fields : DeclId → List Binding}
  {targets : Targets} {id : DeclId}

/-- Injectors go with the subtypes of the serializable interface. -/
lemma strategyFor_eq_injector_iff {target : Declaration} :
    strategyFor m settings target = .injector ↔
      m.isSubtype target.selfType settings.serializable = true := by
  unfold strategyFor
  split
  · next hsub => exact ⟨fun _ => hsub, fun _ => rfl⟩
  · next hsub => exact ⟨nofun, fun h => absurd h hsub⟩

/-- Asking for a target that is there never fails. -/
lemma exists_request (targets : Targets) (settings : Settings) {target : Declaration}
    (htarget : m.declaration? id = some target) :
    ∃ isNew companion targets',
      targets.request m settings id = .ok (isNew, companion, targets') := by
  rw [request]
  cases targets.get? id with
  | some companion => exact ⟨false, companion, targets, rfl⟩
  | none =>
    rw [Model.declaration_eq_ok_iff.mpr htarget]
    exact ⟨true, _, _, rfl⟩

/-- An answer is the companion of a target that was asked for before, or a new companion without
fields, which comes behind the others. -/
lemma request_cases {isNew : Bool} {companion : Companion} {targets' : Targets}
    (h : targets.request m settings id = .ok (isNew, companion, targets')) :
    isNew = false ∧ targets.get? id = some companion ∧ targets' = targets ∨
      isNew = true ∧ ∃ target, m.declaration? id = some target ∧
        companion = Companion.ofTarget id target (strategyFor m settings target) settings ∧
        targets'.companions = targets.companions.push companion := by
  rw [request] at h
  cases hget : targets.get? id with
  | some old =>
    rw [hget] at h
    obtain ⟨hnew, hrest⟩ := Prod.mk.inj (Except.ok.inj h)
    obtain ⟨rfl, rfl⟩ := Prod.mk.inj hrest
    exact Or.inl ⟨hnew.symm, rfl, rfl⟩
  | none =>
    rw [hget] at h
    obtain ⟨target, htarget, h⟩ := bind_eq_ok_iff.mp h
    obtain ⟨hnew, hrest⟩ := Prod.mk.inj (pure_eq_ok_iff.mp h)
    obtain ⟨rfl, rfl⟩ := Prod.mk.inj hrest
    exact Or.inr ⟨hnew.symm, target, Model.declaration_eq_ok_iff.mp htarget, rfl, rfl⟩

/-- A companion is the one made for its target, apart from its fields. -/
def IsCompanion (m : Model) (settings : Settings) (companion : Companion) : Prop :=
  ∃ target, m.declaration? companion.origin = some target ∧
    companion = { Companion.ofTarget companion.origin target (strategyFor m settings target)
      settings with fields := companion.fields }

/-- The companions are those of the targets `ids`, in this order, with the given fields. -/
structure Tracks (m : Model) (settings : Settings) (ids : List DeclId)
    (fields : DeclId → List Binding) (targets : Targets) : Prop where
  origins : targets.companions.toList.map Companion.origin = ids
  positions : ∀ id (p : ℕ), targets.positions[id.index]? = some p ↔ ids[p]? = some id
  companions : ∀ companion ∈ targets.companions.toList,
    IsCompanion m settings companion ∧ companion.fields = fields companion.origin

lemma tracks_nil : Tracks m settings [] fields {} :=
  ⟨rfl, by simp, by simp⟩

namespace Tracks

/-- The targets and their fields determine the companions. -/
lemma companions_eq (h : Tracks m settings ids fields targets) :
    targets.companions.toList = ids.filterMap fun id => (m.declaration? id).map fun target =>
      { Companion.ofTarget id target (strategyFor m settings target) settings with
        fields := fields id } := by
  rw [← h.origins, List.filterMap_map]
  refine (List.filterMap_some.symm.trans (List.filterMap_congr fun companion hcompanion => ?_))
  obtain ⟨⟨target, htarget, hmade⟩, hfields⟩ := h.companions companion hcompanion
  rw [Function.comp_apply, htarget, Option.map_some, ← hfields, ← hmade]

lemma size_eq (h : Tracks m settings ids fields targets) :
    targets.companions.size = ids.length := by
  rw [← h.origins, List.length_map, Array.length_toList]

/-- A target that was asked for has a companion at its position. -/
lemma exists_position (h : Tracks m settings ids fields targets) (hid : id ∈ ids) :
    ∃ (p : ℕ) (companion : Companion), targets.positions[id.index]? = some p ∧
      targets.companions[p]? = some companion ∧ companion.origin = id := by
  obtain ⟨p, hp⟩ := List.mem_iff_getElem?.mp hid
  refine ⟨p, ?_⟩
  have horigin := hp
  rw [← h.origins, List.getElem?_map, Array.getElem?_toList] at horigin
  obtain ⟨companion, hcompanion, horigin⟩ := Option.map_eq_some_iff.mp horigin
  exact ⟨companion, (h.positions id p).mpr hp, hcompanion, horigin⟩

/-- The companion of a target that was asked for is found, and it is among the companions of the
round. -/
lemma exists_get? (h : Tracks m settings ids fields targets) (hid : id ∈ ids) :
    ∃ companion ∈ targets.companions.toList,
      targets.get? id = some companion ∧ companion.origin = id := by
  obtain ⟨p, companion, hp, hcompanion, horigin⟩ := h.exists_position hid
  refine ⟨companion, List.mem_of_getElem? (Array.getElem?_toList.trans hcompanion), ?_, horigin⟩
  rw [get?, hp]
  exact hcompanion

/-- A target that was not asked for has no position. -/
lemma position_eq_none (h : Tracks m settings ids fields targets) (hid : id ∉ ids) :
    targets.positions[id.index]? = none := by
  cases hp : targets.positions[id.index]? with
  | none => rfl
  | some p => exact absurd (List.mem_of_getElem? ((h.positions id p).mp hp)) hid

/-- A target that was not asked for has no companion. -/
lemma get?_eq_none (h : Tracks m settings ids fields targets) (hid : id ∉ ids) :
    targets.get? id = none := by
  rw [get?, h.position_eq_none hid]
  rfl

/-! ### Asking for a target -/

/-- A target that was asked for already is answered with its companion. -/
lemma request_of_mem (h : Tracks m settings ids fields targets) (hid : id ∈ ids) :
    ∃ companion, targets.request m settings id = .ok (false, companion, targets) := by
  obtain ⟨companion, -, hget, -⟩ := h.exists_get? hid
  exact ⟨companion, by rw [request, hget]⟩

/-- A target that is new comes behind the others, with a companion that has no fields yet. -/
lemma request_of_not_mem (h : Tracks m settings ids fields targets) (hid : id ∉ ids)
    {target : Declaration} (htarget : m.declaration? id = some target) (hfields : fields id = []) :
    ∃ companion targets', targets.request m settings id = .ok (true, companion, targets') ∧
      Tracks m settings (ids ++ [id]) fields targets' := by
  have hrequest : targets.request m settings id = .ok (true,
      Companion.ofTarget id target (strategyFor m settings target) settings, {
        companions := targets.companions.push
          (Companion.ofTarget id target (strategyFor m settings target) settings)
        positions := targets.positions.insert id.index targets.companions.size }) := by
    rw [request, h.get?_eq_none hid, Model.declaration_eq_ok_iff.mpr htarget]
    rfl
  refine ⟨_, _, hrequest, ?_, fun other p => ?_, fun companion hcompanion => ?_⟩
  · rw [Array.toList_push, List.map_append, h.origins]
    rfl
  · change (targets.positions.insert id.index targets.companions.size)[other.index]? = some p ↔ _
    rw [Std.TreeMap.getElem?_insert, h.size_eq, getElem?_concat_eq_some_iff, ← h.positions]
    by_cases hother : id = other
    · subst hother
      simp [h.position_eq_none hid, eq_comm]
    · have hindex : compare id.index other.index ≠ .eq := fun heq =>
        hother (DeclId.eq_of_index_eq (Std.compare_eq_iff_eq.mp heq))
      simp [hindex, hother]
  · rw [Array.toList_push, List.mem_append, List.mem_singleton] at hcompanion
    rcases hcompanion with hold | rfl
    · exact h.companions companion hold
    · exact ⟨⟨target, htarget, rfl⟩, hfields.symm⟩

/-! ### Adding a field -/

/-- A field that is added to a target goes behind the fields that the target has. -/
lemma addField (h : Tracks m settings ids fields targets) (hid : id ∈ ids) (binding : Binding) :
    Tracks m settings ids (Function.update fields id (fields id ++ [binding]))
      (targets.addField id binding) := by
  obtain ⟨p, companion, hp, hcompanion, horigin⟩ := h.exists_position hid
  rw [Targets.addField, hp]
  refine ⟨?_, h.positions, fun changed hchanged => ?_⟩
  · rw [Array.toList_modify, map_modify_eq_map, h.origins]
    exact fun _ => rfl
  · rw [Array.toList_modify] at hchanged
    obtain ⟨i, hi⟩ := List.mem_iff_getElem?.mp hchanged
    rw [List.getElem?_modify] at hi
    obtain ⟨old, hold, rfl⟩ := Option.map_eq_some_iff.mp hi
    obtain ⟨hmade, hfields⟩ := h.companions old (List.mem_of_getElem? hold)
    by_cases hpi : p = i
    · subst hpi
      obtain rfl : old = companion :=
        Option.some.inj (hold.symm.trans (Array.getElem?_toList.trans hcompanion))
      obtain ⟨target, htarget, hmade⟩ := hmade
      rw [if_pos rfl]
      refine ⟨⟨target, htarget, congrArg (·.addField binding) hmade⟩, ?_⟩
      rw [Companion.addField, horigin, Function.update_self, hfields, horigin]
    · have hother : old.origin ≠ id := by
        intro heq
        have hids : ids[i]? = some id := by
          rw [← h.origins, List.getElem?_map, hold, Option.map_some, heq]
        exact hpi (Option.some.inj (hp.symm.trans ((h.positions id i).mpr hids)))
      rw [if_neg hpi, Function.update_of_ne hother]
      exact ⟨hmade, hfields⟩

end Tracks

end ParcelCompanion.Targets
