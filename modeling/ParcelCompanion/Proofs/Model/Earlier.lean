import ParcelCompanion.Proofs.Model.Finish

/-!
# Supertypes that were declared earlier

If the direct supertypes of every declaration were declared before it, going up never comes back to
where it began, and the model can be finished.  A declaration that is new has no supertypes, and the
root class, which finishing gives it for a superclass, was declared before all others.
-/

namespace ParcelCompanion.Model

variable {strict : Prop} {m m' : Model}

/-- The direct supertypes of a declaration were declared before it. -/
def SupersEarlier (m : Model) : Prop :=
  ∀ a b, m.DirectSuper a b → b.index < a.index

/-- The superclass of a platform class comes before it on the platform. -/
lemma supersEarlier_platform : platform.SupersEarlier := by
  have hall : platform.declarations.toList.zipIdx.all (fun (d, index) => d.supertypes.all fun t =>
      ((platform.type? t).bind TypeTerm.declaration?).all fun b => decide (b.index < index)) =
        true := by
    decide +kernel
  rintro a b ⟨d, hd, t, args, ht, hterm⟩
  have hmem : (d, a.index) ∈ platform.declarations.toList.zipIdx :=
    List.mk_mem_zipIdx_iff_getElem?.mpr (Array.getElem?_toList.trans hd)
  have hearlier :=
    List.all_eq_true.mp (List.all_eq_true.mp hall _ hmem) t (Declaration.mem_supertypes.mpr ht)
  rw [hterm] at hearlier
  exact of_decide_eq_true hearlier

namespace SupersEarlier

lemma not_transGen (h : m.SupersEarlier) (id : DeclId) :
    ¬ Relation.TransGen m.DirectSuper id id := by
  have hearlier : ∀ a b, Relation.TransGen m.DirectSuper a b → b.index < a.index := by
    intro a b hab
    induction hab with
    | single hstep => exact h _ _ hstep
    | tail _ hstep ih => exact (h _ _ hstep).trans ih
  exact fun hcircle => Nat.lt_irrefl _ (hearlier id id hcircle)

lemma insertDeclaration (h : m.SupersEarlier) (hm : m.Coherent strict) (name package : String)
    (kind : DeclKind) (modifiers : Modifiers) (parameters : List String) :
    (m.insertDeclaration name package kind modifiers parameters).2.SupersEarlier := by
  have hext := insertDeclaration_extends m name package kind modifiers parameters
  rintro a b ⟨d, hd, t, args, ht, hterm⟩
  rw [insertDeclaration_eq, declaration?_pushDeclaration, declaration?,
    (internSelfType_frame m _ _).1] at hd
  split at hd
  · obtain rfl := Option.some.inj hd
    rcases ht with hsuper | hinterface
    · exact absurd hsuper.symm (Option.some_ne_none t)
    · exact absurd hinterface List.not_mem_nil
  · have hsuper := Declaration.mem_supertypes.mpr ht
    obtain ⟨term, hold, -⟩ := hm.usable_of_mem_supertypes hd hsuper
    obtain rfl := Option.some.inj ((hext.type? hold).symm.trans hterm)
    exact h a b ⟨d, hd, t, args, ht, hold⟩

lemma isCompletion (h : m.SupersEarlier) {root : TypeId} (hcompletion : m.IsCompletion m' root) :
    m'.SupersEarlier := by
  rintro a b ⟨d', hd', t, args, ht, hterm⟩
  rw [hcompletion.declaration?_eq] at hd'
  rw [type?, hcompletion.types] at hterm
  obtain ⟨d, hd, rfl⟩ := Option.map_eq_some_iff.mp hd'
  split at ht
  · next himplied =>
    rcases ht with hroot | hinterface
    · obtain rfl := Option.some.inj hroot
      obtain ⟨rfl, -⟩ := TypeTerm.declared.inj
        (Option.some.inj (hterm.symm.trans hcompletion.type?_root))
      exact Nat.pos_of_ne_zero fun hzero => himplied.1 (DeclId.eq_of_index_eq hzero)
    · exact h a b ⟨d, hd, t, args, Or.inr hinterface, hterm⟩
  · exact h a b ⟨d, hd, t, args, ht, hterm⟩

/-- A model can be finished if the direct supertypes of every declaration were declared before
it. -/
lemma exists_finish (h : m.SupersEarlier) (hm : m.Coherent strict)
    (hplatform : platform.Extends m) : ∃ finished, m.finish = .ok finished := by
  obtain ⟨root, completed, hcompletion, -, ⟨hfinish, -⟩ | ⟨names, -, hcircle⟩⟩ :=
    finish_cases hm hplatform
  · exact ⟨completed, hfinish⟩
  · obtain ⟨id, hid⟩ := hcircle.transGen
    exact absurd hid ((h.isCompletion hcompletion).not_transGen id)

end SupersEarlier

end ParcelCompanion.Model
