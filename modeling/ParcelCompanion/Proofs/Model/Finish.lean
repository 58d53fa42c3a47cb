import ParcelCompanion.Proofs.Edit.Calls
import ParcelCompanion.Proofs.Model.Acyclic

/-!
# Finished models

Finishing completes a model by its implicit superclasses and then searches it for circles.  The main
statement `finish_afterCalls` holds of whatever a sequence of calls has made of the platform:
finishing fails exactly when the completed hierarchy has a circle, it then names one, and otherwise
it answers with the completed model.
-/

namespace ParcelCompanion.Model

variable {strict : Prop} {m : Model}

/-- A coherent model that grew out of the platform is completed, and either a circle is named or
there is none. -/
lemma finish_cases (h : m.Coherent strict) (hplatform : platform.Extends m) :
    ∃ root completed, m.IsCompletion completed root ∧ completed.Coherent strict ∧
      ((m.finish = .ok completed ∧ ∀ id, ¬ Relation.TransGen completed.DirectSuper id id) ∨
        ∃ names, m.finish = .error (.cyclicHierarchy names) ∧ completed.IsCircle names) := by
  obtain ⟨d, hd, hobject, hroot⟩ := h.root hplatform
  have hcompleted := h.withImplicitSuperclasses (h.usable_selfType hd)
  refine ⟨d.selfType, m.withImplicitSuperclasses d.selfType,
    withImplicitSuperclasses_isCompletion hobject hroot, hcompleted, ?_⟩
  have hfinish : m.finish = do
      (m.withImplicitSuperclasses d.selfType).checkAcyclic
      return m.withImplicitSuperclasses d.selfType := by
    rw [finish, declaration_eq_ok_iff.mpr hd]
    rfl
  rw [hfinish]
  rcases checkAcyclic_cases hcompleted with ⟨hcheck, hnone⟩ | ⟨names, hcheck, hcircle⟩
  · rw [hcheck]
    exact Or.inl ⟨rfl, hnone⟩
  · rw [hcheck]
    exact Or.inr ⟨names, rfl, hcircle⟩

/-- The answer of finishing is the model with its implicit superclasses. -/
lemma exists_of_finish {finished : Model} (h : m.finish = .ok finished) :
    ∃ d, m.declaration? object = some d ∧ finished = m.withImplicitSuperclasses d.selfType := by
  obtain ⟨d, hd, hfinish⟩ := bind_eq_ok_iff.mp h
  obtain ⟨-, -, hfinished⟩ := bind_eq_ok_iff.mp hfinish
  exact ⟨d, declaration_eq_ok_iff.mp hd, (pure_eq_ok_iff.mp hfinished).symm⟩

/-- Finishing changes nothing but what declarations refer to. -/
lemma redeclares_of_finish {finished : Model} (h : m.finish = .ok finished) :
    m.Redeclares finished := by
  obtain ⟨d, -, rfl⟩ := exists_of_finish h
  exact withImplicitSuperclasses_redeclares m d.selfType

/-- Finishing keeps models coherent. -/
lemma Coherent.finish (h : m.Coherent strict) {finished : Model}
    (hfinish : m.finish = .ok finished) : finished.Coherent strict := by
  obtain ⟨d, hd, rfl⟩ := exists_of_finish hfinish
  exact h.withImplicitSuperclasses (h.usable_selfType hd)

/-- After any sequence of calls, finishing fails exactly when some declaration of the completed
model is above itself.  Its error tells the names along a circle of direct supertypes, and its
answer is the completed model. -/
theorem finish_afterCalls (calls : List Call) :
    ∃ root completed, (afterCalls calls).IsCompletion completed root ∧
      ((∃ e, (afterCalls calls).finish = .error e) ↔
        ∃ id, Relation.TransGen completed.DirectSuper id id) ∧
      (∀ e, (afterCalls calls).finish = .error e →
        ∃ names, e = .cyclicHierarchy names ∧ completed.IsCircle names ∧
          e.message =
            "Circular type hierarchy detected: " ++ String.intercalate " -> " names) ∧
      ∀ finished, (afterCalls calls).finish = .ok finished → finished = completed := by
  obtain ⟨hcoherent, hplatform⟩ := afterCalls_coherent calls
  obtain ⟨root, completed, hcompletion, -, hcases⟩ := finish_cases hcoherent hplatform
  refine ⟨root, completed, hcompletion, ?_⟩
  rcases hcases with ⟨hfinish, hnone⟩ | ⟨names, hfinish, hcircle⟩
  · rw [hfinish]
    refine ⟨⟨nofun, ?_⟩, nofun, fun finished heq => (Except.ok.inj heq).symm⟩
    rintro ⟨id, hid⟩
    exact absurd hid (hnone id)
  · rw [hfinish]
    refine ⟨⟨fun _ => hcircle.transGen, fun _ => ⟨_, rfl⟩⟩, fun e heq => ?_, nofun⟩
    obtain rfl := Except.error.inj heq
    exact ⟨names, rfl, hcircle, rfl⟩

/-- Two classes that are the superclass of each other. -/
example :
    ((afterCalls [.declare { name := "a.A" }, .declare { name := "a.B" },
      .setSuperclass ⟨11⟩ ⟨12⟩, .setSuperclass ⟨12⟩ ⟨11⟩]).finish.map fun _ => ()) =
        .error (.cyclicHierarchy ["a.A", "a.B", "a.A"]) := by
  decide +kernel

end ParcelCompanion.Model
