import Mathlib.Logic.Function.Basic
import ParcelCompanion.Proofs.Meaning.Computes

/-!
# Outlines

An outline is a model without numbers: it tells for each qualified name what the declaration of this
name consists of, where types are trees.  `Realizes` relates models to outlines.  Models with more
types realize the same outline, and a change of one declaration changes the outline at its name.
-/

namespace ParcelCompanion

/-! ### Declarations without numbers -/

/-- A type parameter with its bounds. -/
structure ParameterOutline where
  name : String
  bounds : List TypeTree

/-- A field. -/
structure FieldOutline where
  name : String
  type : TypeTree
  modifiers : Modifiers
  annotations : List String

/-- A declaration and its fields, without its qualified name. -/
structure DeclarationOutline where
  package : String
  kind : DeclKind
  modifiers : Modifiers
  parameters : List ParameterOutline
  superclass : Option TypeTree
  interfaces : List TypeTree
  fields : List FieldOutline

/-- What a declaration contributes to the resolution of names. -/
def DeclarationOutline.scope (o : DeclarationOutline) : Scope :=
  ⟨o.package, o.parameters.map ParameterOutline.name⟩

/-- The declarations of a model, by qualified name. -/
abbrev ModelOutline := String → Option DeclarationOutline

namespace ModelOutline

/-- The names that resolution goes by. -/
def names (outline : ModelOutline) : Names := fun name =>
  (outline name).map DeclarationOutline.scope

/-- The outline with another declaration of the given name. -/
def set (outline : ModelOutline) (name : String) (o : DeclarationOutline) : ModelOutline :=
  Function.update outline name (some o)

variable (outline : ModelOutline) {name other : String} (o o' : DeclarationOutline)

@[simp] lemma set_self : outline.set name o name = some o :=
  Function.update_self ..

lemma set_of_ne (h : other ≠ name) : outline.set name o other = outline other :=
  Function.update_of_ne h ..

@[simp] lemma set_set : (outline.set name o).set name o' = outline.set name o' :=
  Function.update_idem ..

/-- Declarations of different names do not get into each other's way. -/
lemma set_comm (h : name ≠ other) :
    (outline.set name o).set other o' = (outline.set other o').set name o :=
  Function.update_comm h ..

end ModelOutline

namespace Model

variable {strict : Prop} {m m' : Model} {d : Declaration} {fields : List Field}
  {o : DeclarationOutline} {outline : ModelOutline}

/-! ### Declarations of a model -/

/-- A type parameter of the model is as the outline says. -/
structure ShowsParameter (m : Model) (parameter : TypeParameter) (p : ParameterOutline) :
    Prop where
  name : parameter.name = p.name
  bounds : m.DenotesAll parameter.bounds p.bounds

/-- A field of the model is as the outline says. -/
structure ShowsField (m : Model) (field : Field) (f : FieldOutline) : Prop where
  name : field.name = f.name
  type : m.Denotes field.type f.type
  modifiers : field.modifiers = f.modifiers
  annotations : field.annotations = f.annotations

/-- A declaration of the model with its fields is as the outline says. -/
structure Shows (m : Model) (d : Declaration) (fields : List Field) (o : DeclarationOutline) :
    Prop where
  package : d.package = o.package
  kind : d.kind = o.kind
  modifiers : d.modifiers = o.modifiers
  parameters : List.Forall₂ m.ShowsParameter d.parameters o.parameters
  superclass : Option.Rel m.Denotes d.superclass o.superclass
  interfaces : m.DenotesAll d.interfaces o.interfaces
  fields : List.Forall₂ m.ShowsField fields o.fields

lemma ShowsParameter.of_extends (hext : m.Extends m') {parameter : TypeParameter}
    {p : ParameterOutline} (h : m.ShowsParameter parameter p) : m'.ShowsParameter parameter p :=
  ⟨h.name, h.bounds.of_extends hext⟩

lemma ShowsField.of_extends (hext : m.Extends m') {field : Field} {f : FieldOutline}
    (h : m.ShowsField field f) : m'.ShowsField field f :=
  ⟨h.name, h.type.of_extends hext, h.modifiers, h.annotations⟩

lemma rel_denotes_of_extends (hext : m.Extends m') {id? : Option TypeId}
    {tree? : Option TypeTree} (h : Option.Rel m.Denotes id? tree?) :
    Option.Rel m'.Denotes id? tree? := by
  cases h with
  | some hid => exact .some (hid.of_extends hext)
  | none => exact .none

/-- What a declaration shows does not depend on what else is in the model. -/
lemma Shows.of_extends (hext : m.Extends m') (h : m.Shows d fields o) : m'.Shows d fields o where
  package := h.package
  kind := h.kind
  modifiers := h.modifiers
  parameters := h.parameters.imp fun _ _ => ShowsParameter.of_extends hext
  superclass := rel_denotes_of_extends hext h.superclass
  interfaces := h.interfaces.of_extends hext
  fields := h.fields.imp fun _ _ => ShowsField.of_extends hext

/-- The type parameters of a declaration have the names that the outline tells. -/
lemma Shows.scope_eq (h : m.Shows d fields o) : d.scope = o.scope := by
  have hnames : List.Forall₂ Eq (d.parameters.map TypeParameter.name)
      (o.parameters.map ParameterOutline.name) := by
    rw [List.forall₂_map_left_iff, List.forall₂_map_right_iff]
    exact h.parameters.imp fun _ _ => ShowsParameter.name
  rw [List.forall₂_eq_eq_eq] at hnames
  rw [Declaration.scope, DeclarationOutline.scope, h.package, hnames]

/-! ### Models -/

/-- The fields that a declaration encloses, in order. -/
def fieldsIn (m : Model) (id : DeclId) : List Field :=
  m.elements.toList.filter fun field => field.enclosing == id

/-- A model has the declarations of an outline and no others. -/
structure Realizes (m : Model) (outline : ModelOutline) : Prop where
  unknown : ∀ name, m.lookup name = none → outline name = none
  known : ∀ name id, m.lookup name = some id →
    ∃ d o, m.declaration? id = some d ∧ outline name = some o ∧ m.Shows d (m.fieldsIn id) o

/-- A name that the outline tells has a declaration in the model. -/
lemma Realizes.exists_of_outline (h : m.Realizes outline) {name : String}
    (hname : outline name = some o) :
    ∃ id d, m.lookup name = some id ∧ m.declaration? id = some d ∧
      m.Shows d (m.fieldsIn id) o := by
  cases hid : m.lookup name with
  | none => exact nomatch (h.unknown name hid).symm.trans hname
  | some id =>
    obtain ⟨d, o', hd, ho', hshows⟩ := h.known name id hid
    obtain rfl := Option.some.inj (hname.symm.trans ho')
    exact ⟨id, d, rfl, hd, hshows⟩

/-- A declaration of the model is told by the outline under its name. -/
lemma Realizes.exists_of_declaration (h : m.Realizes outline) (hm : m.Linked strict)
    {id : DeclId} (hd : m.declaration? id = some d) :
    ∃ o, outline d.name = some o ∧ m.Shows d (m.fieldsIn id) o := by
  have hid : m.lookup d.name = some id := (hm.names d.name id).mpr ⟨d, hd, rfl⟩
  obtain ⟨d', o, hd', ho, hshows⟩ := h.known d.name id hid
  obtain rfl := Option.some.inj (hd.symm.trans hd')
  exact ⟨o, ho, hshows⟩

/-- Resolution goes by the names of the outline. -/
lemma Realizes.names_eq (h : m.Realizes outline) : m.names = outline.names := by
  funext name
  rw [Model.names, ModelOutline.names]
  cases hid : m.lookup name with
  | none =>
    rw [h.unknown name hid]
    rfl
  | some id =>
    obtain ⟨d, o, hd, ho, hshows⟩ := h.known name id hid
    rw [ho, Option.bind_some, hd, Option.map_some, Option.map_some, hshows.scope_eq]

/-- Models with more types realize the same outline. -/
lemma Realizes.of_addsTypes (h : m.Realizes outline) (hadds : m.AddsTypes m') :
    m'.Realizes outline := by
  have hfields : m'.fieldsIn = m.fieldsIn := by
    funext id
    rw [fieldsIn, fieldsIn, hadds.elements]
  refine ⟨fun name hname => ?_, fun name id hid => ?_⟩
  · rw [hadds.lookup_eq] at hname
    exact h.unknown name hname
  · rw [hadds.lookup_eq] at hid
    obtain ⟨d, o, hd, ho, hshows⟩ := h.known name id hid
    rw [hfields]
    exact ⟨d, o, hadds.declaration?_eq ▸ hd, ho, hshows.of_extends hadds.toExtends⟩

/-- When one declaration of a growing model changes, the outline changes at its name. -/
lemma Realizes.set (h : m.Realizes outline) (hm : m.Linked strict) (hext : m.Extends m')
    (hlookup : m'.lookup = m.lookup) {name : String} {id : DeclId}
    (hid : m.lookup name = some id) (hd : m'.declaration? id = some d)
    (hshows : m'.Shows d (m'.fieldsIn id) o)
    (hothers : ∀ other, other ≠ id →
      m'.declaration? other = m.declaration? other ∧ m'.fieldsIn other = m.fieldsIn other) :
    m'.Realizes (outline.set name o) := by
  refine ⟨fun other hother => ?_, fun other id' hid' => ?_⟩
  · rw [hlookup] at hother
    have hne : other ≠ name := by
      rintro rfl
      exact nomatch hother.symm.trans hid
    rw [ModelOutline.set_of_ne _ _ hne]
    exact h.unknown other hother
  · rw [hlookup] at hid'
    by_cases hname : other = name
    · subst hname
      obtain rfl := Option.some.inj (hid.symm.trans hid')
      exact ⟨d, o, hd, ModelOutline.set_self .., hshows⟩
    · -- Distinct names have distinct declarations.
      have hne : id' ≠ id := by
        rintro rfl
        obtain ⟨e, he, rfl⟩ := (hm.names name id').mp hid
        obtain ⟨e', he', rfl⟩ := (hm.names other id').mp hid'
        exact hname (congrArg Declaration.name (Option.some.inj (he'.symm.trans he)))
      obtain ⟨e, o', he, ho', hshows'⟩ := h.known other id' hid'
      obtain ⟨hdecl, hfields⟩ := hothers id' hne
      rw [hfields]
      exact ⟨e, o', hdecl.trans he, (ModelOutline.set_of_ne _ _ hname).trans ho',
        hshows'.of_extends hext⟩

/-! ### Every model has an outline -/

/-- Every type of a strictly coherent model denotes a tree. -/
lemma Coherent.exists_denotes (hm : m.Coherent True) {id : TypeId} {term : TypeTerm}
    (hid : m.type? id = some term) : ∃ tree, m.Denotes id tree := by
  induction hn : id.index using Nat.strongRecOn generalizing id term with
  | ind n ih =>
    have hcomponents : ∀ c ∈ term.components, ∃ tree, m.Denotes c tree := by
      intro c hc
      obtain ⟨component, hcomponent⟩ := hm.grounded.type?_component hid hc
      exact ih c.index (hn ▸ hm.grounded id term hid c hc) hcomponent rfl
    cases term with
    | primitive kind => exact ⟨.primitive kind, hid⟩
    | unresolved name => exact ⟨.unresolved name, hid⟩
    | parameter owner index =>
      obtain ⟨parameter, hparameter⟩ := hm.typeParameter_of_parameter hid
      obtain ⟨d, hd, hindex⟩ := typeParameter_eq_ok_iff.mp hparameter
      exact ⟨.parameter d.name index parameter.name, owner, d, parameter, hid, hd, rfl, hindex, rfl⟩
    | array element =>
      obtain ⟨tree, htree⟩ := hcomponents element List.mem_cons_self
      exact ⟨.array tree, element, hid, htree⟩
    | declared decl args =>
      obtain ⟨d, hd⟩ := hm.declaration?_of_declared hid
      obtain ⟨trees, htrees⟩ := exists_forall₂ hcomponents
      exact ⟨.declared d.name trees, decl, d, args, hid, hd, rfl, denotesAll_iff.mpr htrees⟩
    | wildcard upper lower =>
      rcases upper with _ | upper <;> rcases lower with _ | lower
      · exact ⟨.wildcard, hid⟩
      · obtain ⟨tree, htree⟩ := hcomponents lower List.mem_cons_self
        exact ⟨.bounded .lower tree, lower, hid, htree⟩
      · obtain ⟨tree, htree⟩ := hcomponents upper List.mem_cons_self
        exact ⟨.bounded .upper tree, upper, hid, htree⟩
      · -- No wildcard is bounded on both sides.
        have hone := (hm.interned.admissible id _ hid trivial).1
        simp at hone

/-- The types that a declaration refers to denote trees. -/
lemma Coherent.exists_denotes_of_mem_references (hm : m.Coherent True) {id : DeclId}
    (hd : m.declaration? id = some d) {t : TypeId} (ht : t ∈ d.references) :
    ∃ tree, m.Denotes t tree := by
  obtain ⟨term, hterm, -⟩ := hm.references id d hd t ht
  exact hm.exists_denotes hterm

/-- Every declaration of a strictly coherent model shows something. -/
lemma Coherent.exists_shows (hm : m.Coherent True) {id : DeclId}
    (hd : m.declaration? id = some d) : ∃ o, m.Shows d (m.fieldsIn id) o := by
  have href : ∀ t, (d.superclass = some t ∨ t ∈ d.interfaces ∨
      ∃ parameter ∈ d.parameters, t ∈ parameter.bounds) → ∃ tree, m.Denotes t tree :=
    fun t ht => hm.exists_denotes_of_mem_references hd (Declaration.mem_references.mpr (Or.inr ht))
  obtain ⟨parameters, hparameters⟩ : ∃ parameters,
      List.Forall₂ m.ShowsParameter d.parameters parameters := by
    refine exists_forall₂ fun parameter hparameter => ?_
    obtain ⟨bounds, hbounds⟩ := exists_forall₂ fun t ht =>
      href t (Or.inr (Or.inr ⟨parameter, hparameter, ht⟩))
    exact ⟨⟨parameter.name, bounds⟩, rfl, denotesAll_iff.mpr hbounds⟩
  obtain ⟨superclass, hsuper⟩ : ∃ superclass, Option.Rel m.Denotes d.superclass superclass := by
    cases hsuper : d.superclass with
    | none => exact ⟨none, .none⟩
    | some t =>
      obtain ⟨tree, htree⟩ := href t (Or.inl hsuper)
      exact ⟨some tree, .some htree⟩
  obtain ⟨interfaces, hinterfaces⟩ := exists_forall₂ fun t ht => href t (Or.inr (Or.inl ht))
  obtain ⟨fields, hfields⟩ : ∃ fields, List.Forall₂ m.ShowsField (m.fieldsIn id) fields := by
    refine exists_forall₂ fun field hfield => ?_
    have hmem : field ∈ m.elements := Array.mem_toList_iff.mp (List.mem_of_mem_filter hfield)
    obtain ⟨⟨term, hterm, -⟩, -⟩ := hm.fields field hmem
    obtain ⟨tree, htree⟩ := hm.exists_denotes hterm
    exact ⟨⟨field.name, tree, field.modifiers, field.annotations⟩, rfl, htree, rfl, rfl⟩
  exact ⟨⟨d.package, d.kind, d.modifiers, parameters, superclass, interfaces, fields⟩,
    rfl, rfl, rfl, hparameters, hsuper, denotesAll_iff.mpr hinterfaces, hfields⟩

/-- Every strictly coherent model realizes an outline. -/
lemma Coherent.exists_realizes (hm : m.Coherent True) : ∃ outline, m.Realizes outline := by
  have hname : ∀ name, ∃ o? : Option DeclarationOutline, (m.lookup name = none → o? = none) ∧
      ∀ id, m.lookup name = some id →
        ∃ d o, m.declaration? id = some d ∧ o? = some o ∧ m.Shows d (m.fieldsIn id) o := by
    intro name
    cases hid : m.lookup name with
    | none => exact ⟨none, fun _ => rfl, nofun⟩
    | some id =>
      obtain ⟨d, hd, -⟩ := (hm.names name id).mp hid
      obtain ⟨o, ho⟩ := hm.exists_shows hd
      refine ⟨some o, nofun, fun id' hid' => ?_⟩
      obtain rfl := Option.some.inj hid'
      exact ⟨d, o, hd, rfl, ho⟩
  choose outline hunknown hknown using hname
  exact ⟨outline, hunknown, hknown⟩

end Model

end ParcelCompanion
