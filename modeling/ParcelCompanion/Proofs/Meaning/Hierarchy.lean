import ParcelCompanion.Proofs.Meaning.Height
import ParcelCompanion.Proofs.Meaning.Outline
import ParcelCompanion.Proofs.Model.Subtype

/-!
# The hierarchy without numbers

An outline has a hierarchy of its own, between qualified names and between trees.  It is that of
every model that realizes the outline: the model has a circle exactly when the outline has one, and
a type reaches a target exactly when the tree that it denotes reaches the target.
-/

namespace ParcelCompanion

/-- The direct supertypes: the superclass, if any, then the interfaces. -/
def DeclarationOutline.supertypes (o : DeclarationOutline) : List TypeTree :=
  o.superclass.toList ++ o.interfaces

namespace ModelOutline

/-- One declaration has another as its superclass or as one of its interfaces. -/
def DirectSuper (outline : ModelOutline) (a b : String) : Prop :=
  ∃ o args, outline a = some o ∧ .declared b args ∈ o.supertypes

/-- A declared type has another type as the superclass or as one of the interfaces of its
declaration. -/
def Supertype (outline : ModelOutline) (a b : TypeTree) : Prop :=
  ∃ name args o, a = .declared name args ∧ outline name = some o ∧ b ∈ o.supertypes

/-- The outline with the root class as the superclass of every other class and enum that has
none. -/
def withImplicitSuperclasses (outline : ModelOutline) : ModelOutline := fun name =>
  (outline name).map fun o =>
    if name ≠ Model.objectName ∧ o.superclass = none ∧
        (o.kind = .classType ∨ o.kind = .enumType) then
      { o with superclass := some (.declared Model.objectName []) }
    else o

end ModelOutline

/-- A tree matches a target that is its canonical name, or the wildcard form of its declaration. -/
def TypeTree.Matches (tree : TypeTree) (target : String) : Prop :=
  tree.name = target ∨ ∃ name args, tree = .declared name args ∧ 0 < args.length ∧
    Model.wildcardForm name args.length = target

namespace Model

variable {strict : Prop} {m m' : Model} {outline : ModelOutline} {d : Declaration}
  {fields : List Field} {o : DeclarationOutline} {id : TypeId} {tree : TypeTree}

/-! ### Declared types -/

/-- What a declared type denotes applies the declaration of the same name. -/
lemma Denotes.eq_declared (h : m.Denotes id tree) {decl : DeclId} {args : List TypeId}
    (hid : m.type? id = some (.declared decl args)) (hd : m.declaration? decl = some d) :
    ∃ trees, tree = .declared d.name trees ∧ m.DenotesAll args trees := by
  cases tree with
  | declared name trees =>
    obtain ⟨decl', d', args', hid', hd', rfl, hargs⟩ := h
    rw [hid, Option.some.injEq, TypeTerm.declared.injEq] at hid'
    obtain ⟨rfl, rfl⟩ := hid'
    obtain rfl := Option.some.inj (hd.symm.trans hd')
    exact ⟨trees, rfl, hargs⟩
  | primitive kind => exact nomatch hid.symm.trans h
  | unresolved name => exact nomatch hid.symm.trans h
  | wildcard => exact nomatch hid.symm.trans h
  | parameter owner index name =>
    obtain ⟨_, _, _, hid', _⟩ := h
    exact nomatch hid.symm.trans hid'
  | array element =>
    obtain ⟨_, hid', _⟩ := h
    exact nomatch hid.symm.trans hid'
  | bounded kind bound =>
    cases kind <;> obtain ⟨_, hid', _⟩ := h <;> exact nomatch hid.symm.trans hid'

/-- The direct supertypes of a declaration denote what the outline tells, in order. -/
lemma Shows.supertypes (h : m.Shows d fields o) :
    List.Forall₂ m.Denotes d.supertypes o.supertypes :=
  List.rel_append (forall₂_toList_of_rel h.superclass) (denotesAll_iff.mp h.interfaces)

/-! ### Direct supertypes -/

/-- What is above a declaration in the model is above its name in the outline. -/
lemma Realizes.directSuper (h : m.Realizes outline) (hm : m.Linked strict) {a b : DeclId}
    {e : Declaration} (ha : m.declaration? a = some d) (hb : m.declaration? b = some e)
    (hab : m.DirectSuper a b) : outline.DirectSuper d.name e.name := by
  obtain ⟨d', hd', t, args, ht, hargs⟩ := hab
  obtain rfl := Option.some.inj (ha.symm.trans hd')
  obtain ⟨o, ho, hshows⟩ := h.exists_of_declaration hm ha
  obtain ⟨tree, htree, hdenotes⟩ :=
    exists_mem_of_forall₂ hshows.supertypes (Declaration.mem_supertypes.mpr ht)
  obtain ⟨trees, rfl, -⟩ := hdenotes.eq_declared hargs hb
  exact ⟨o, trees, ho, htree⟩

/-- What is above a name in the outline is above its declaration in the model. -/
lemma Realizes.directSuper_of_outline (h : m.Realizes outline) (hm : m.Linked strict)
    {a b : String} (hab : outline.DirectSuper a b) :
    ∃ id id', m.lookup a = some id ∧ m.lookup b = some id' ∧ m.DirectSuper id id' := by
  obtain ⟨o, trees, ho, htrees⟩ := hab
  obtain ⟨id, d, hid, hd, hshows⟩ := h.exists_of_outline ho
  obtain ⟨t, ht, hdenotes⟩ := exists_mem_of_forall₂ hshows.supertypes.flip htrees
  obtain ⟨decl, e, args, hargs, he, rfl, -⟩ := hdenotes
  exact ⟨id, decl, hid, (hm.names e.name decl).mpr ⟨e, he, rfl⟩,
    directSuper_of_mem_supertypes hd ht hargs⟩

/-- A model has a circle exactly when the outline has one. -/
lemma Realizes.exists_circle_iff (h : m.Realizes outline) (hm : m.Coherent strict) :
    (∃ id, Relation.TransGen m.DirectSuper id id) ↔
      ∃ name, Relation.TransGen outline.DirectSuper name name := by
  constructor
  · rintro ⟨id, hid⟩
    obtain ⟨nameOf, hname⟩ := exists_nameOf m
    have hstep : ∀ a b, m.DirectSuper a b → outline.DirectSuper (nameOf a) (nameOf b) := by
      intro a b hab
      have ⟨d, hd, _⟩ := hab
      obtain ⟨e, he⟩ := hm.declaration?_of_directSuper hab
      rw [hname a d hd, hname b e he]
      exact h.directSuper hm.toLinked hd he hab
    exact ⟨nameOf id, Relation.TransGen.lift nameOf hstep id id hid⟩
  · rintro ⟨name, hname⟩
    have hstep : ∀ a b, outline.DirectSuper a b →
        m.DirectSuper ((m.lookup a).getD object) ((m.lookup b).getD object) := by
      intro a b hab
      obtain ⟨id, id', ha, hb, hsuper⟩ := h.directSuper_of_outline hm.toLinked hab
      rw [ha, hb]
      exact hsuper
    exact ⟨(m.lookup name).getD object,
      Relation.TransGen.lift (fun name => (m.lookup name).getD object) hstep name name hname⟩

/-! ### Implicit superclasses -/

/-- Implicit superclasses do not touch what a declaration was registered with. -/
lemma IsCompletion.toExtends {root : TypeId} (h : m.IsCompletion m' root) : m.Extends m' := by
  refine ⟨h.types ▸ List.prefix_rfl, ?_, h.elements ▸ List.prefix_rfl⟩
  have hbare : m'.declarations.toList.map Declaration.bare =
      m.declarations.toList.map Declaration.bare := by
    refine List.ext_getElem? fun i => ?_
    have hdecl : m'.declarations[i]? = _ := h.declaration?_eq ⟨i⟩
    rw [List.getElem?_map, List.getElem?_map, Array.getElem?_toList, Array.getElem?_toList, hdecl,
      Option.map_map]
    refine Option.map_congr fun d _ => ?_
    rw [Function.comp_apply]
    split <;> rfl
  exact hbare ▸ List.prefix_rfl

/-- Implicit superclasses complete the outline of a model. -/
lemma Realizes.isCompletion (h : m.Realizes outline) (hm : m.Linked strict) {root : TypeId}
    (hcompletion : m.IsCompletion m' root) : m'.Realizes outline.withImplicitSuperclasses := by
  have hext := hcompletion.toExtends
  have hlookup : m'.lookup = m.lookup := by
    funext name
    rw [lookup, lookup, hcompletion.declarationIds]
  have hfields : m'.fieldsIn = m.fieldsIn := by
    funext id
    rw [fieldsIn, fieldsIn, hcompletion.elements]
  have hroot : m'.Denotes root (.declared objectName []) := by
    obtain ⟨d, hd, hname⟩ := (hm.names objectName object).mp hcompletion.lookup_object
    exact Denotes.of_extends hext ⟨object, d, [], hcompletion.type?_root, hd, hname, rfl⟩
  refine ⟨fun name hname => ?_, fun name id hid => ?_⟩
  · rw [hlookup] at hname
    rw [ModelOutline.withImplicitSuperclasses, h.unknown name hname, Option.map_none]
  · rw [hlookup] at hid
    obtain ⟨d, o, hd, ho, hshows⟩ := h.known name id hid
    have hobject : id ≠ object ↔ name ≠ objectName := by
      refine not_congr ⟨?_, ?_⟩
      · rintro rfl
        obtain ⟨e, he, rfl⟩ := (hm.names name object).mp hid
        obtain ⟨e', he', hname⟩ := (hm.names objectName object).mp hcompletion.lookup_object
        obtain rfl := Option.some.inj (he.symm.trans he')
        exact hname
      · rintro rfl
        exact Option.some.inj (hid.symm.trans hcompletion.lookup_object)
    have hcondition : (id ≠ object ∧ d.superclass = none ∧
        (d.kind = .classType ∨ d.kind = .enumType)) ↔
          (name ≠ objectName ∧ o.superclass = none ∧
            (o.kind = .classType ∨ o.kind = .enumType)) := by
      rw [hobject, eq_none_iff_of_rel hshows.superclass, hshows.kind]
    rw [hcompletion.declaration?_eq, hd, Option.map_some, ModelOutline.withImplicitSuperclasses,
      ho, Option.map_some, hfields]
    refine ⟨_, _, rfl, rfl, ?_⟩
    have hold := hshows.of_extends hext
    by_cases hc : id ≠ object ∧ d.superclass = none ∧
        (d.kind = .classType ∨ d.kind = .enumType)
    · rw [if_pos hc, if_pos (hcondition.mp hc)]
      exact { hold with superclass := .some hroot }
    · rw [if_neg hc, if_neg (hcondition.not.mp hc)]
      exact hold

/-! ### Reaching a target -/

/-- The supertypes of a type denote supertypes of what it denotes. -/
lemma Realizes.exists_supertype (h : m.Realizes outline) (hm : m.Linked strict) {above : TypeId}
    (hid : m.Denotes id tree) (habove : m.Supertype id above) :
    ∃ tree', outline.Supertype tree tree' ∧ m.Denotes above tree' := by
  obtain ⟨decl, args, d, hterm, hd, ht⟩ := habove
  obtain ⟨trees, rfl, -⟩ := hid.eq_declared hterm hd
  obtain ⟨o, ho, hshows⟩ := h.exists_of_declaration hm hd
  obtain ⟨tree', htree', hdenotes⟩ :=
    exists_mem_of_forall₂ hshows.supertypes (Declaration.mem_supertypes.mpr ht)
  exact ⟨tree', ⟨d.name, trees, o, rfl, ho, htree'⟩, hdenotes⟩

/-- The supertypes of what a type denotes are denoted by supertypes of it. -/
lemma Realizes.exists_supertype_of_outline (h : m.Realizes outline) (hm : m.Linked strict)
    {tree' : TypeTree} (hid : m.Denotes id tree) (hsuper : outline.Supertype tree tree') :
    ∃ above, m.Supertype id above ∧ m.Denotes above tree' := by
  obtain ⟨name, trees, o, rfl, ho, htree'⟩ := hsuper
  obtain ⟨decl, d, args, hterm, hd, rfl, -⟩ := hid
  obtain ⟨o', ho', hshows⟩ := h.exists_of_declaration hm hd
  obtain rfl := Option.some.inj (ho.symm.trans ho')
  obtain ⟨above, habove, hdenotes⟩ := exists_mem_of_forall₂ hshows.supertypes.flip htree'
  exact ⟨above, (supertype_iff_of_declared hterm hd).mpr habove, hdenotes⟩

/-- A type matches what the tree that it denotes matches. -/
lemma Denotes.matches_iff (hid : m.Denotes id tree) (target : String) :
    m.Matches id target ↔ tree.Matches target := by
  have hname := hid.canonicalName
  have hforms : (∃ decl args d, m.type? id = some (.declared decl args) ∧
      m.declaration? decl = some d ∧ 0 < args.length ∧
        wildcardForm d.name args.length = target) ↔
          ∃ name trees, tree = .declared name trees ∧ 0 < trees.length ∧
            wildcardForm name trees.length = target := by
    constructor
    · rintro ⟨decl, args, d, hterm, hd, hpos, hform⟩
      obtain ⟨trees, rfl, hargs⟩ := hid.eq_declared hterm hd
      rw [hargs.length_eq] at hpos hform
      exact ⟨d.name, trees, rfl, hpos, hform⟩
    · rintro ⟨name, trees, rfl, hpos, hform⟩
      obtain ⟨decl, d, args, hterm, hd, rfl, hargs⟩ := hid
      rw [← hargs.length_eq] at hpos hform
      exact ⟨decl, args, d, hterm, hd, hpos, hform⟩
  rw [Matches, TypeTree.Matches, hname, Except.ok.injEq, ← hforms]
  simp only [wildcardForm_eq_iff]

/-- A type reaches a target exactly when the tree that it denotes does. -/
lemma Realizes.reaches_iff (h : m.Realizes outline) (hm : m.Coherent True)
    (hid : m.Denotes id tree) (target : String) :
    (∃ above, Relation.ReflTransGen m.Supertype id above ∧ m.Matches above target) ↔
      ∃ tree', Relation.ReflTransGen outline.Supertype tree tree' ∧ tree'.Matches target := by
  constructor
  · rintro ⟨above, habove, hmatches⟩
    have hwalk : ∃ tree', Relation.ReflTransGen outline.Supertype tree tree' ∧
        m.Denotes above tree' := by
      clear hmatches
      induction habove with
      | refl => exact ⟨tree, .refl, hid⟩
      | tail _ hstep ih =>
        obtain ⟨tree', hwalk, hdenotes⟩ := ih
        obtain ⟨tree'', hsuper, hdenotes'⟩ := h.exists_supertype hm.toLinked hdenotes hstep
        exact ⟨tree'', hwalk.tail hsuper, hdenotes'⟩
    obtain ⟨tree', hwalk, hdenotes⟩ := hwalk
    exact ⟨tree', hwalk, (hdenotes.matches_iff target).mp hmatches⟩
  · rintro ⟨tree', hwalk, hmatches⟩
    have habove : ∃ above, Relation.ReflTransGen m.Supertype id above ∧
        m.Denotes above tree' := by
      clear hmatches
      induction hwalk with
      | refl => exact ⟨id, .refl, hid⟩
      | tail _ hstep ih =>
        obtain ⟨above, habove, hdenotes⟩ := ih
        obtain ⟨next, hsuper, hdenotes'⟩ :=
          h.exists_supertype_of_outline hm.toLinked hdenotes hstep
        exact ⟨next, habove.tail hsuper, hdenotes'⟩
    obtain ⟨above, habove, hdenotes⟩ := habove
    exact ⟨above, habove, (hdenotes.matches_iff target).mpr hmatches⟩

/-- The check for subtypes goes by the outline of the model. -/
lemma Realizes.isSubtype_iff (h : m.Realizes outline) (hm : m.Coherent True)
    (hacyclic : ∀ id, ¬ Relation.TransGen m.DirectSuper id id) (hid : m.Denotes id tree)
    (target : String) :
    m.isSubtype id target = true ↔
      ∃ tree', Relation.ReflTransGen outline.Supertype tree tree' ∧ tree'.Matches target := by
  rw [isSubtype, isSubtypeWithin_iff hm (endsWithin_of_acyclic hacyclic id) (Nat.le_refl _),
    h.reaches_iff hm hid target]
  exact and_iff_right hid.exists_type?

end Model

end ParcelCompanion
