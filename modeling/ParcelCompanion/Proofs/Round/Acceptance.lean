import ParcelCompanion.Proofs.Answer
import ParcelCompanion.Proofs.Model.Extends
import ParcelCompanion.Round.Run

/-!
# Which elements a round accepts

An element is accepted when the model can answer for it and it breaks no rule.  `Accepts` says so
without reference to the order of the checks, and `accepted?` decides it.
-/

namespace ParcelCompanion

namespace Model

variable {m : Model} {settings : Settings} {id : ElementId}

/-! ### The type that counts -/

/-- The upper bound of a type parameter is its first bound, or else the root class. -/
def IsUpperBound (m : Model) (owner : DeclId) (index : ℕ) (bound : TypeId) : Prop :=
  ∃ d parameter, m.declaration? owner = some d ∧ d.parameters[index]? = some parameter ∧
    (parameter.bounds.head? = some bound ∨
      parameter.bounds = [] ∧ ∃ root, m.declaration? object = some root ∧ root.selfType = bound)

/-- What a type counts as: a type parameter as its upper bound, and every other type as itself. -/
inductive CountsAs (m : Model) (id : TypeId) : TypeId → Prop
  | parameter {owner : DeclId} {index : ℕ} {bound : TypeId}
    (hid : m.type? id = some (.parameter owner index)) (hbound : m.IsUpperBound owner index bound) :
    CountsAs m id bound
  | other {term : TypeTerm} (hid : m.type? id = some term)
    (hterm : ∀ owner index, term ≠ .parameter owner index) : CountsAs m id id

lemma upperBound_eq_ok_iff {owner : DeclId} {index : ℕ} {bound : TypeId} :
    m.upperBound owner index = .ok bound ↔ m.IsUpperBound owner index bound := by
  rw [upperBound, bind_eq_ok_iff]
  simp only [typeParameter_eq_ok_iff]
  constructor
  · rintro ⟨parameter, ⟨d, hd, hparameter⟩, h⟩
    refine ⟨d, parameter, hd, hparameter, ?_⟩
    cases hbounds : parameter.bounds with
    | nil =>
      rw [hbounds] at h
      obtain ⟨root, hroot, h⟩ := bind_eq_ok_iff.mp h
      exact Or.inr ⟨rfl, root, declaration_eq_ok_iff.mp hroot, pure_eq_ok_iff.mp h⟩
    | cons first rest =>
      rw [hbounds] at h
      exact Or.inl (congrArg some (pure_eq_ok_iff.mp h))
  · rintro ⟨d, parameter, hd, hparameter, hbound⟩
    refine ⟨parameter, ⟨d, hd, hparameter⟩, ?_⟩
    rcases hbound with hfirst | ⟨hnone, root, hroot, rfl⟩
    · rw [hfirst]
      rfl
    · rw [hnone]
      exact bind_eq_ok_iff.mpr ⟨root, declaration_eq_ok_iff.mpr hroot, rfl⟩

lemma boundOfType_eq_ok_iff {id bound : TypeId} :
    m.boundOfType id = .ok bound ↔ m.CountsAs id bound := by
  rw [boundOfType, bind_eq_ok_iff]
  simp only [type_eq_ok_iff]
  constructor
  · rintro ⟨term, hid, h⟩
    split at h
    · exact .parameter hid (upperBound_eq_ok_iff.mp h)
    · next hterm =>
      obtain rfl := pure_eq_ok_iff.mp h
      exact .other hid hterm
  · rintro (⟨hid, hbound⟩ | ⟨hid, hterm⟩)
    · exact ⟨_, hid, upperBound_eq_ok_iff.mpr hbound⟩
    · refine ⟨_, hid, ?_⟩
      split
      · next owner index => exact absurd rfl (hterm owner index)
      · rfl

/-! ### The rules -/

/-- A field of a declaration breaks no rule when it is neither private nor static, the declaration
is a class that is not private, and no reserved namespace holds its name. -/
def KeepsRules (settings : Settings) (field : Field) (enclosing : Declaration) : Prop :=
  field.modifiers.isPrivate = false ∧ field.modifiers.isStatic = false ∧
    enclosing.kind = .classType ∧ enclosing.modifiers.isPrivate = false ∧
      ∀ entry ∈ settings.reserved, ¬ entry.start.toList <+: enclosing.name.toList

lemma reservedFor?_eq_none_iff {name : String} :
    settings.reservedFor? name = none ↔
      ∀ entry ∈ settings.reserved, ¬ entry.start.toList <+: name.toList := by
  simp [Settings.reservedFor?, Dotted.startsWith, List.isPrefixOf_iff_prefix]

/-- No violation is found exactly when no rule is broken. -/
lemma violationsOf_eq_nil_iff {field : Field} {enclosing : Declaration} :
    violationsOf settings id field enclosing = [] ↔ KeepsRules settings field enclosing := by
  rw [KeepsRules, ← reservedFor?_eq_none_iff]
  simp only [violationsOf, List.append_eq_nil_iff]
  cases hreserved : settings.reservedFor? enclosing.name <;> simp [and_assoc]

/-! ### Acceptance -/

/-- An element is accepted for a target, which encloses it, with its name and the canonical name of
what its type counts as. -/
def Accepts (m : Model) (settings : Settings) (id : ElementId) (target : DeclId)
    (binding : Binding) : Prop :=
  ∃ field enclosing type, m.elements[id.index]? = some field ∧ field.enclosing = target ∧
    m.declaration? target = some enclosing ∧ m.CountsAs field.type type ∧
      m.canonicalName type = .ok binding.type ∧ binding.name = field.name ∧
        KeepsRules settings field enclosing

/-- The target and the binding of an element that is accepted. -/
def accepted? (m : Model) (settings : Settings) (id : ElementId) : Option (DeclId × Binding) :=
  match Round.bindingOf m id, m.violations settings id, m.element id with
  | .ok binding, .ok [], .ok field => some (field.enclosing, binding)
  | _, _, _ => none

lemma bindingOf_eq_ok_iff {binding : Binding} :
    Round.bindingOf m id = .ok binding ↔
      ∃ field type, m.elements[id.index]? = some field ∧ m.CountsAs field.type type ∧
        m.canonicalName type = .ok binding.type ∧ binding.name = field.name := by
  simp only [Round.bindingOf, boundOfElement, bind_eq_ok_iff, element_eq_ok_iff,
    boundOfType_eq_ok_iff, pure_eq_ok_iff]
  constructor
  · rintro ⟨field, hfield, type, ⟨field', hfield', htype⟩, name, hname, rfl⟩
    obtain rfl := Option.some.inj (hfield.symm.trans hfield')
    exact ⟨field, type, hfield, htype, hname, rfl⟩
  · rintro ⟨field, type, hfield, htype, hname, hbinding⟩
    exact ⟨field, hfield, type, ⟨field, hfield, htype⟩, binding.type, hname, by rw [← hbinding]⟩

lemma violations_eq_ok_iff {found : List Violation} :
    m.violations settings id = .ok found ↔
      ∃ field enclosing, m.elements[id.index]? = some field ∧
        m.declaration? field.enclosing = some enclosing ∧
          violationsOf settings id field enclosing = found := by
  simp only [violations, bind_eq_ok_iff, element_eq_ok_iff, declaration_eq_ok_iff, pure_eq_ok_iff]
  constructor
  · rintro ⟨field, hfield, enclosing, henclosing, hfound⟩
    exact ⟨field, enclosing, hfield, henclosing, hfound⟩
  · rintro ⟨field, enclosing, hfield, henclosing, hfound⟩
    exact ⟨field, hfield, enclosing, henclosing, hfound⟩

/-- An element is accepted when its binding, its rules and its target are answered well. -/
lemma accepted?_eq_some_iff {target : DeclId} {binding : Binding} :
    m.accepted? settings id = some (target, binding) ↔
      Round.bindingOf m id = .ok binding ∧ m.violations settings id = .ok [] ∧
        ∃ field, m.element id = .ok field ∧ field.enclosing = target := by
  unfold accepted?
  constructor
  · intro h
    split at h
    · next hbinding hviolations hfield =>
      obtain ⟨htarget, rfl⟩ := Prod.mk.inj (Option.some.inj h)
      exact ⟨hbinding, hviolations, _, hfield, htarget⟩
    · exact nomatch h
  · rintro ⟨hbinding, hviolations, field, hfield, rfl⟩
    rw [hbinding, hviolations, hfield]

/-- The decision agrees with what acceptance means. -/
lemma accepted?_iff_accepts {target : DeclId} {binding : Binding} :
    m.accepted? settings id = some (target, binding) ↔ m.Accepts settings id target binding := by
  rw [accepted?_eq_some_iff, bindingOf_eq_ok_iff, violations_eq_ok_iff]
  simp only [element_eq_ok_iff, violationsOf_eq_nil_iff]
  constructor
  · rintro ⟨⟨field, type, hfield, htype, hname, hbinding⟩,
      ⟨field₁, enclosing, hfield₁, henclosing, hrules⟩, field₂, hfield₂, rfl⟩
    obtain rfl := Option.some.inj (hfield.symm.trans hfield₁)
    obtain rfl := Option.some.inj (hfield.symm.trans hfield₂)
    exact ⟨field, enclosing, type, hfield, rfl, henclosing, htype, hname, hbinding, hrules⟩
  · rintro ⟨field, enclosing, type, hfield, rfl, henclosing, htype, hname, hbinding, hrules⟩
    exact ⟨⟨field, type, hfield, htype, hname, hbinding⟩,
      ⟨field, enclosing, hfield, henclosing, hrules⟩, field, hfield, rfl⟩

end Model

end ParcelCompanion
