import ParcelCompanion.Proofs.Meaning.Permutation
import ParcelCompanion.Proofs.Meaning.View

/-!
# The order of declarations in a document does not matter

All numbers in the model of a document depend on the order of its declarations, and so does the
error when there is no model.  Whether there is a model does not, and neither does anything that the
model tells without numbers.

Building a document adds to the outline of the platform what the document is on its own account, and
that does not depend on the order.  It then remains to see that models which realize the same
outline cannot be told apart.
-/

namespace ParcelCompanion

open Edit Model

/-! ### Models of the same outline -/

namespace Model

variable {m m' : Model} {outline : ModelOutline} {name : String}

/-- Two models tell the same about a qualified name: either it is unknown to both of them, or the
two declarations of this name look alike, and their own types are subtypes of the same targets. -/
def AgreeOn (m m' : Model) (name : String) : Prop :=
  (m.lookup name = none ∧ m'.lookup name = none) ∨
    ∃ id id' view self self', m.lookup name = some id ∧ m'.lookup name = some id' ∧
      m.view id = .ok view ∧ m'.view id' = .ok view ∧
        m.selfType id = .ok self ∧ m'.selfType id' = .ok self' ∧
          ∀ target, m.isSubtype self target = m'.isSubtype self' target

/-- A model that is fit to be looked at, without regard to its numbers. -/
structure Presents (m : Model) (outline : ModelOutline) : Prop where
  coherent : m.Coherent True
  platform : platform.Extends m
  acyclic : ∀ id, ¬ Relation.TransGen m.DirectSuper id id
  realizes : m.Realizes outline

/-- What a model tells about a declaration is told by its outline. -/
lemma Presents.exists_view (h : m.Presents outline) {o : DeclarationOutline}
    (hname : outline name = some o) :
    ∃ id self, m.lookup name = some id ∧ m.view id = .ok (outline.view o) ∧
      m.selfType id = .ok self ∧ ∀ target, m.isSubtype self target = true ↔
        ∃ tree, Relation.ReflTransGen outline.Supertype (o.selfTree name) tree ∧
          tree.Matches target := by
  obtain ⟨id, d, hid, -, -⟩ := h.realizes.exists_of_outline hname
  obtain ⟨o', ho', hview⟩ := h.realizes.view h.coherent h.platform hid
  obtain ⟨self, o'', hself, ho'', hdenotes⟩ :=
    h.realizes.denotes_selfType h.coherent.toLinked hid
  obtain rfl := Option.some.inj (hname.symm.trans ho')
  obtain rfl := Option.some.inj (hname.symm.trans ho'')
  exact ⟨id, self, hid, hview, hself,
    h.realizes.isSubtype_iff h.coherent h.acyclic hdenotes⟩

/-- Models of the same outline tell the same about every name. -/
lemma Presents.agreeOn (h : m.Presents outline) (h' : m'.Presents outline) (name : String) :
    m.AgreeOn m' name := by
  cases ho : outline name with
  | none =>
    have hnone : ∀ {m : Model}, m.Presents outline → m.lookup name = none := by
      intro m h
      cases hid : m.lookup name with
      | none => rfl
      | some id =>
        obtain ⟨d, o, -, ho', -⟩ := h.realizes.known name id hid
        exact nomatch ho.symm.trans ho'
    exact Or.inl ⟨hnone h, hnone h'⟩
  | some o =>
    obtain ⟨id, self, hid, hview, hself, hsub⟩ := h.exists_view ho
    obtain ⟨id', self', hid', hview', hself', hsub'⟩ := h'.exists_view ho
    refine Or.inr ⟨id, id', outline.view o, self, self', hid, hid', hview, hview', hself, hself',
      fun target => ?_⟩
    exact Bool.eq_iff_iff.mpr ((hsub target).trans (hsub' target).symm)

end Model

/-! ### Building without numbers -/

namespace Document

variable {m m' : Model} {outline : ModelOutline}

/-- Building fails when the document adds nothing to the outline of the platform.  Otherwise it
completes what is added, and fails exactly when that has a circle. -/
lemma build_cases (h : platform.Realizes outline) (document : Document) :
    ((∃ e, document.build = .error e) ∧ document.register? outline = none) ∨
      ∃ registered, document.register? outline = some registered ∧
        (((∃ e, document.build = .error e) ∧ ∃ name,
            Relation.TransGen registered.withImplicitSuperclasses.DirectSuper name name) ∨
          ∃ m, document.build = .ok m ∧ m.Presents registered.withImplicitSuperclasses) := by
  have hkeeps : document.register.Keeps True platform fun _ _ => True := document.keeps_register
  have hcomputes := (computes_register coherent_platform h).and_keeps hkeeps coherent_platform
  have hbuild : document.build = match document.register.apply platform with
    | (.ok (), m) => m.finish
    | (.error error, _) => .error error := rfl
  unfold Computes Ensures at hcomputes
  rcases hr : document.register.apply platform with ⟨e | _, m⟩ <;> rw [hr] at hcomputes hbuild
  · exact Or.inl ⟨⟨e, hbuild⟩, hcomputes⟩
  obtain ⟨registered, hregistered, hrealizes, hcoherent, hplatform⟩ := hcomputes
  refine Or.inr ⟨registered, hregistered, ?_⟩
  obtain ⟨root, completed, hcompletion, hcompleted, hcases⟩ := finish_cases hcoherent hplatform
  have hrealizes' := hrealizes.isCompletion hcoherent.toLinked hcompletion
  rcases hcases with ⟨hfinish, hnone⟩ | ⟨names, hfinish, hcircle⟩
  · exact Or.inr ⟨completed, hbuild.trans hfinish, hcompleted,
      hplatform.trans hcompletion.toExtends, hnone, hrealizes'⟩
  · exact Or.inl ⟨⟨_, hbuild.trans hfinish⟩,
      (hrealizes'.exists_circle_iff hcompleted).mp hcircle.transGen⟩

/-- There is a model of a document exactly when what the document adds to the outline of the
platform has no circle. -/
lemma exists_build_iff (h : platform.Realizes outline) (document : Document) :
    (∃ m, document.build = .ok m) ↔ ∃ registered, document.register? outline = some registered ∧
      ∀ name, ¬ Relation.TransGen registered.withImplicitSuperclasses.DirectSuper name name := by
  rcases build_cases h document with
    ⟨⟨e, he⟩, hnone⟩ | ⟨registered, hregistered, ⟨⟨e, he⟩, name, hcircle⟩ | ⟨m, hm, hpresents⟩⟩
  · simp [he, hnone]
  · constructor
    · rintro ⟨m, hm⟩
      exact nomatch he.symm.trans hm
    · rintro ⟨registered', hregistered', hacyclic⟩
      obtain rfl := Option.some.inj (hregistered.symm.trans hregistered')
      exact absurd hcircle (hacyclic name)
  · refine ⟨fun _ => ⟨registered, hregistered, fun name hcircle => ?_⟩, fun _ => ⟨m, hm⟩⟩
    obtain ⟨id, hid⟩ :=
      (hpresents.realizes.exists_circle_iff hpresents.coherent).mpr ⟨name, hcircle⟩
    exact hpresents.acyclic id hid

/-- The model of a document presents what the document adds to the outline of the platform. -/
lemma presents_of_build (h : platform.Realizes outline) {document : Document}
    (hbuild : document.build = .ok m) :
    ∃ registered, document.register? outline = some registered ∧
      m.Presents registered.withImplicitSuperclasses := by
  rcases build_cases h document with
    ⟨⟨e, he⟩, -⟩ | ⟨registered, hregistered, ⟨⟨e, he⟩, -⟩ | ⟨m', hm', hpresents⟩⟩
  · exact nomatch he.symm.trans hbuild
  · exact nomatch he.symm.trans hbuild
  · obtain rfl := Except.ok.inj (hm'.symm.trans hbuild)
    exact ⟨registered, hregistered, hpresents⟩

/-- The order of the declarations of a document does not matter: with another order there is a model
exactly when there was one, and it tells the same about every qualified name. -/
theorem build_agreeOn_of_perm {document document' : Document}
    (h : document.declarations.Perm document'.declarations) :
    ((∃ m, document.build = .ok m) ↔ ∃ m', document'.build = .ok m') ∧
      ∀ m m', document.build = .ok m → document'.build = .ok m' → ∀ name, m.AgreeOn m' name := by
  obtain ⟨outline, houtline⟩ := (coherent_platform : platform.Coherent True).exists_realizes
  have hregister := register?_eq_of_perm h outline
  constructor
  · rw [exists_build_iff houtline, exists_build_iff houtline, hregister]
  · intro m m' hm hm' name
    obtain ⟨registered, hregistered, hpresents⟩ := presents_of_build houtline hm
    obtain ⟨registered', hregistered', hpresents'⟩ := presents_of_build houtline hm'
    rw [hregister, hregistered'] at hregistered
    obtain rfl := Option.some.inj hregistered
    exact hpresents.agreeOn hpresents' name

/-- The document `boxes`, last declaration first. -/
def boxesReversed : Document where
  declarations := boxes.declarations.reverse

/-- The reversed document has a model in which the declarations have other numbers, and which tells
the same about them. -/
theorem boxes_agreeOn_reversed : ∃ m m', boxes.build = .ok m ∧ boxesReversed.build = .ok m' ∧
    m.lookup "app.Box" = some ⟨11⟩ ∧ m'.lookup "app.Box" = some ⟨13⟩ ∧
      ∀ name, m.AgreeOn m' name := by
  have hperm : boxes.declarations.Perm boxesReversed.declarations := (List.reverse_perm _).symm
  obtain ⟨m, h, hbox⟩ : ∃ m, boxes.build = .ok m ∧ m.lookup "app.Box" = some ⟨11⟩ :=
    exists_ok_of_toOption_map (by decide +kernel)
  obtain ⟨m', h', hbox'⟩ : ∃ m', boxesReversed.build = .ok m' ∧ m'.lookup "app.Box" = some ⟨13⟩ :=
    exists_ok_of_toOption_map (by decide +kernel)
  exact ⟨m, m', h, h', hbox, hbox', (build_agreeOn_of_perm hperm).2 m m' h h'⟩

end Document

end ParcelCompanion
