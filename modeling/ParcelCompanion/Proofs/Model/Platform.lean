import ParcelCompanion.Proofs.Model.Declare

/-!
# The platform is coherent

Every model starts from the platform classes.  They are registered one after the other, each under a
name of its own and with a superclass that was registered before it.
-/

namespace ParcelCompanion.Model

variable {strict : Prop} {m : Model}

/-- The model without declarations is coherent. -/
lemma coherent_empty : ({} : Model).Coherent strict := by
  have htype : ∀ id, ({} : Model).type? id = none := fun _ => rfl
  have hdecl : ∀ id, ({} : Model).declaration? id = none := fun _ => rfl
  refine ⟨⟨fun name id => ?_, ?_, ?_, fun field hfield => ?_⟩, fun term id => ?_, ?_⟩
  · simp [hdecl, lookup]
  · simp [hdecl]
  · simp [hdecl]
  · simp at hfield
  · simp [htype]
  · simp [htype]

/-- A platform class is known by its name from now on, and the other names are known as before. -/
lemma lookup_insertPlatformClass (m : Model) (name : String) (superclass : Option TypeId)
    {other : String} (hother : name ≠ other) :
    (m.insertPlatformClass name superclass).lookup other = m.lookup other := by
  have hids := (internSelfType_frame m ⟨m.declarations.size⟩ 0).2.1
  rw [insertPlatformClass, insertDeclaration_eq]
  refine (lookup_pushDeclaration _ _ other).trans ((if_neg hother).trans ?_)
  exact congrArg (·[other]?) hids

/-- A platform class with a new name and a superclass that is there keeps a model coherent. -/
lemma Coherent.insertPlatformClass (h : m.Coherent strict) {name : String}
    {superclass : Option TypeId} (hname : m.lookup name = none)
    (hsuper : ∀ t, superclass = some t → m.Usable strict t) :
    (m.insertPlatformClass name superclass).Coherent strict := by
  have hm := h.insertDeclaration hname ((Dotted.outer? name).getD "") .classType
    (platformModifiers name) []
  refine hm.modifyDeclaration (fun _ => rfl) fun d _ t ht => ?_
  rw [Declaration.mem_references] at ht ⊢
  rcases ht with hself | ht | hrest
  · exact Or.inl (Or.inl hself)
  · exact Or.inr ((insertDeclaration_extends m ..).usable (hsuper t ht))
  · exact Or.inl (Or.inr (Or.inr hrest))

/-- Platform classes with names of their own keep a model coherent. -/
lemma Coherent.foldl_insertPlatformClass (h : m.Coherent strict) {classes : List (String × String)}
    (hnodup : (classes.map Prod.fst).Nodup) (hnew : ∀ c ∈ classes, m.lookup c.1 = none) :
    (classes.foldl (fun m (name, superclass) =>
      m.insertPlatformClass name (do
        let id ← m.lookup superclass
        let declaration ← m.declaration? id
        return declaration.selfType)) m).Coherent strict := by
  induction classes generalizing m with
  | nil => exact h
  | cons c classes ih =>
    rw [List.map_cons, List.nodup_cons] at hnodup
    refine ih (h.insertPlatformClass (hnew c List.mem_cons_self) fun t ht => ?_) hnodup.2
      fun c' hc' => ?_
    · obtain ⟨id, -, hid⟩ := Option.bind_eq_some_iff.mp ht
      obtain ⟨d, hd, hself⟩ := Option.bind_eq_some_iff.mp hid
      exact Option.some.inj hself ▸ h.usable_selfType hd
    · rw [lookup_insertPlatformClass]
      · exact hnew c' (List.mem_cons_of_mem _ hc')
      · exact fun heq => hnodup.1 (heq ▸ List.mem_map_of_mem hc')

/-- The platform is coherent, even in the strict degree. -/
lemma coherent_platform : platform.Coherent strict := by
  refine (coherent_empty.insertPlatformClass rfl (by simp)).foldl_insertPlatformClass
    (by decide) fun c hc => ?_
  rw [lookup_insertPlatformClass]
  · rfl
  · revert c
    decide

end ParcelCompanion.Model
