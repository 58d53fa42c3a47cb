import ParcelCompanion.Proofs.Meaning.Hierarchy

/-!
# What can be seen of a declaration

A view tells what a model says about a declaration without telling any numbers: types are told by
their canonical names.  It is determined by the outline of the model.
-/

namespace ParcelCompanion

/-! ### Views -/

/-- A field, with the canonical names of its type and of its type with a type parameter replaced by
its upper bound. -/
structure FieldView where
  name : String
  type : String
  boundedType : String
  modifiers : Modifiers
  annotations : List String
  deriving DecidableEq, Repr

/-- A declaration with its fields, where types are told by their canonical names. -/
structure DeclarationView where
  package : String
  kind : DeclKind
  modifiers : Modifiers
  /-- The names of the type parameters, each with its bounds. -/
  parameters : List (String × List String)
  superclass : Option String
  interfaces : List String
  fields : List FieldView
  deriving DecidableEq, Repr

namespace Model

/-- What can be seen of a field. -/
def viewField (m : Model) (id : ElementId) : Except ModelError FieldView := do
  let field ← m.element id
  let type ← m.canonicalName field.type
  let boundedType ← m.canonicalName (← m.boundOfElement id)
  return {
    name := field.name
    type
    boundedType
    modifiers := field.modifiers
    annotations := field.annotations }

/-- What can be seen of a declaration. -/
def view (m : Model) (decl : DeclId) : Except ModelError DeclarationView := do
  let d ← m.declaration decl
  let parameters ← d.parameters.mapM fun parameter => do
    return (parameter.name, ← parameter.bounds.mapM m.canonicalName)
  let superclass ← d.superclass.mapM m.canonicalName
  let interfaces ← d.interfaces.mapM m.canonicalName
  let fields ← (m.fieldsOf decl).mapM m.viewField
  return {
    package := d.package
    kind := d.kind
    modifiers := d.modifiers
    parameters
    superclass
    interfaces
    fields }

end Model

/-! ### Views of outlines -/

namespace ModelOutline

/-- A tree with a type parameter replaced by its upper bound. -/
def bound (outline : ModelOutline) : TypeTree → TypeTree
  | .parameter owner index name =>
    match (outline owner).bind fun o => o.parameters[index]? with
    | some parameter => parameter.bounds.headD (.declared Model.objectName [])
    | none => .parameter owner index name
  | tree => tree

/-- What can be seen of a field. -/
def viewField (outline : ModelOutline) (f : FieldOutline) : FieldView where
  name := f.name
  type := f.type.name
  boundedType := (outline.bound f.type).name
  modifiers := f.modifiers
  annotations := f.annotations

/-- What can be seen of a declaration. -/
def view (outline : ModelOutline) (o : DeclarationOutline) : DeclarationView where
  package := o.package
  kind := o.kind
  modifiers := o.modifiers
  parameters := o.parameters.map fun parameter => (parameter.name, TypeTree.names parameter.bounds)
  superclass := o.superclass.map TypeTree.name
  interfaces := TypeTree.names o.interfaces
  fields := o.fields.map outline.viewField

end ModelOutline

/-- A declaration applied to its own type parameters. -/
def DeclarationOutline.selfTree (o : DeclarationOutline) (name : String) : TypeTree :=
  .declared name (o.parameters.mapIdx fun index parameter => .parameter name index parameter.name)

namespace Model

variable {strict : Prop} {m : Model} {outline : ModelOutline} {name : String} {id : DeclId}
  {d : Declaration} {o : DeclarationOutline}

/-! ### The own type -/

/-- The own type of a declaration denotes its name, applied to its own type parameters. -/
lemma Realizes.denotes_selfType (h : m.Realizes outline) (hm : m.Linked strict)
    (hid : m.lookup name = some id) :
    ∃ t o, m.selfType id = .ok t ∧ outline name = some o ∧ m.Denotes t (o.selfTree name) := by
  obtain ⟨d, hd, rfl⟩ := (hm.names name id).mp hid
  obtain ⟨o, ho, hshows⟩ := h.exists_of_declaration hm hd
  obtain ⟨args, hself, hargs⟩ := hm.selfTypes id d hd
  refine ⟨d.selfType, o, ?_, ho, id, d, args, hself, hd, rfl, denotesAll_iff.mpr ?_⟩
  · rw [selfType, declaration_eq_ok_iff.mpr hd]
    rfl
  have hlength : args.length = d.parameters.length := by
    simpa using congrArg List.length hargs
  have hparameters := hshows.parameters.length_eq
  refine List.forall₂_iff_get.mpr ⟨by rw [List.length_mapIdx]; omega, fun i hi hi' => ?_⟩
  have hi : i < d.parameters.length := by omega
  have htype : m.type? (args[i]) = some (.parameter id i) := by
    have hget := congrArg (·[i]?) hargs
    simpa [hlength, hi] using hget
  have hname : d.parameters[i].name = o.parameters[i].name :=
    (hshows.parameters.get hi (by omega)).name
  simp only [List.get_eq_getElem, List.getElem_mapIdx]
  exact ⟨id, d, d.parameters[i], htype, hd, rfl, List.getElem?_eq_getElem hi, hname⟩

/-! ### Bounds -/

/-- The own type of the root class denotes its name. -/
lemma Coherent.denotes_root (hm : m.Coherent strict) (hplatform : platform.Extends m) :
    ∃ d, m.declaration? object = some d ∧
      m.Denotes d.selfType (.declared objectName []) := by
  obtain ⟨d, hd, hobject, hself⟩ := hm.root hplatform
  obtain ⟨e, he, hname⟩ := (hm.names objectName object).mp hobject
  exact ⟨d, hd, object, e, [], hself, he, hname, rfl⟩

/-- The upper bound of a type parameter denotes what the outline tells. -/
lemma Realizes.denotes_upperBound (h : m.Realizes outline) (hm : m.Coherent strict)
    (hplatform : platform.Extends m) {index : ℕ} {parameter : TypeParameter}
    (hd : m.declaration? id = some d) (hparameter : d.parameters[index]? = some parameter) :
    ∃ t, m.upperBound id index = .ok t ∧
      m.Denotes t (outline.bound (.parameter d.name index parameter.name)) := by
  obtain ⟨o, ho, hshows⟩ := h.exists_of_declaration hm.toLinked hd
  obtain ⟨p, hp, hshowsp⟩ := getElem?_of_forall₂ hshows.parameters hparameter
  obtain ⟨root, hroot, hdenotes⟩ := hm.denotes_root hplatform
  have hbounds := denotesAll_iff.mp hshowsp.bounds
  rw [upperBound, typeParameter_eq_ok_iff.mpr ⟨d, hd, hparameter⟩, ModelOutline.bound, ho,
    Option.bind_some, hp]
  obtain ⟨parameterName, bounds⟩ := parameter
  obtain ⟨pName, trees⟩ := p
  cases hbounds with
  | nil =>
    refine ⟨root.selfType, ?_, hdenotes⟩
    rw [declaration_eq_ok_iff.mpr hroot]
    rfl
  | cons hbound _ => exact ⟨_, rfl, hbound⟩

/-- A type with a type parameter replaced by its upper bound denotes what the outline tells. -/
lemma Realizes.denotes_bound (h : m.Realizes outline) (hm : m.Coherent strict)
    (hplatform : platform.Extends m) {t : TypeId} {tree : TypeTree} (ht : m.Denotes t tree) :
    ∃ t', m.boundOfType t = .ok t' ∧ m.Denotes t' (outline.bound tree) := by
  have hother : ∀ term, m.type? t = some term → (∀ owner index, term ≠ .parameter owner index) →
      m.boundOfType t = .ok t := by
    intro term hterm hne
    rw [boundOfType, type_eq_ok_iff.mpr hterm]
    cases term with
    | parameter owner index => exact absurd rfl (hne owner index)
    | _ => rfl
  cases tree with
  | parameter owner index name =>
    obtain ⟨decl, d, parameter, hterm, hd, rfl, hparameter, rfl⟩ := ht
    rw [boundOfType, type_eq_ok_iff.mpr hterm]
    exact h.denotes_upperBound hm hplatform hd hparameter
  | primitive kind => exact ⟨t, hother _ ht nofun, ht⟩
  | unresolved name => exact ⟨t, hother _ ht nofun, ht⟩
  | wildcard => exact ⟨t, hother _ ht nofun, ht⟩
  | declared name args =>
    have ⟨_, _, _, hterm, _⟩ := ht
    exact ⟨t, hother _ hterm nofun, ht⟩
  | array element =>
    have ⟨_, hterm, _⟩ := ht
    exact ⟨t, hother _ hterm nofun, ht⟩
  | bounded kind bound =>
    cases kind
    all_goals
      have ⟨_, hterm, _⟩ := ht
      exact ⟨t, hother _ hterm nofun, ht⟩

/-! ### The view of a declaration -/

/-- A field shows what the outline tells. -/
lemma Realizes.viewField (h : m.Realizes outline) (hm : m.Coherent True)
    (hplatform : platform.Extends m) {element : ElementId} {field : Field} {f : FieldOutline}
    (helement : m.element element = .ok field) (hfield : m.ShowsField field f) :
    m.viewField element = .ok (outline.viewField f) := by
  obtain ⟨t, ht, hbound⟩ := h.denotes_bound hm hplatform hfield.type
  simp only [Model.viewField, boundOfElement, bind_eq_ok_iff, pure_eq_ok_iff]
  refine ⟨field, helement, _, hfield.type.canonicalName, t, ⟨field, helement, ht⟩, _,
    hbound.canonicalName, ?_⟩
  rw [ModelOutline.viewField, hfield.name, hfield.modifiers, hfield.annotations]

/-- The fields of a declaration show what the outline tells, in order. -/
lemma Realizes.mapM_viewField (h : m.Realizes outline) (hm : m.Coherent True)
    (hplatform : platform.Extends m) {fs : List FieldOutline}
    (hfields : List.Forall₂ m.ShowsField (m.fieldsIn id) fs) :
    (m.fieldsOf id).mapM m.viewField = .ok (fs.map outline.viewField) := by
  have hids : m.fieldsOf id = (m.elements.toList.zipIdx.filter fun x => x.1.enclosing == id).map
      fun x => ⟨x.2⟩ :=
    filterMap_ite_eq (fun x : Field × ℕ => x.1.enclosing == id) _ _
  rw [fieldsIn, filter_eq_map_filter_zipIdx, List.forall₂_map_left_iff] at hfields
  rw [hids, mapM_eq_ok_iff, List.forall₂_map_left_iff, List.forall₂_map_right_iff]
  have hmem : ∀ x ∈ m.elements.toList.zipIdx.filter fun x => x.1.enclosing == id,
      m.element ⟨x.2⟩ = .ok x.1 := by
    intro x hx
    have hx := List.mem_zipIdx_iff_getElem?.mp (List.mem_of_mem_filter hx)
    rw [Array.getElem?_toList] at hx
    rw [element, hx]
  refine ((List.forall₂_and_left _ _).mpr ⟨hmem, hfields⟩).imp fun x f hboth => ?_
  exact h.viewField hm hplatform hboth.1 hboth.2

/-- The type parameters of a declaration show what the outline tells, in order. -/
lemma mapM_viewParameter {parameters : List TypeParameter} {ps : List ParameterOutline}
    (h : List.Forall₂ m.ShowsParameter parameters ps) :
    (parameters.mapM fun parameter => do
      return (parameter.name, ← parameter.bounds.mapM m.canonicalName)) =
        .ok (ps.map fun p => (p.name, TypeTree.names p.bounds)) := by
  rw [mapM_eq_ok_iff, List.forall₂_map_right_iff]
  refine h.imp fun parameter p hp => ?_
  rw [hp.bounds.canonicalNames, hp.name]
  rfl

/-- The superclass of a declaration shows what the outline tells. -/
lemma mapM_viewSuperclass {t? : Option TypeId} {tree? : Option TypeTree}
    (h : Option.Rel m.Denotes t? tree?) :
    t?.mapM m.canonicalName = .ok (tree?.map TypeTree.name) := by
  cases h with
  | none => rfl
  | some ht =>
    rw [Option.mapM_some, ht.canonicalName]
    rfl

/-- The view of a declaration is what the outline tells. -/
lemma Realizes.view (h : m.Realizes outline) (hm : m.Coherent True)
    (hplatform : platform.Extends m) (hid : m.lookup name = some id) :
    ∃ o, outline name = some o ∧ m.view id = .ok (outline.view o) := by
  obtain ⟨d, o, hd, ho, hshows⟩ := h.known name id hid
  refine ⟨o, ho, ?_⟩
  simp only [Model.view, bind_eq_ok_iff, pure_eq_ok_iff]
  refine ⟨d, declaration_eq_ok_iff.mpr hd, _, mapM_viewParameter hshows.parameters, _,
    mapM_viewSuperclass hshows.superclass, _, hshows.interfaces.canonicalNames, _,
    h.mapM_viewField hm hplatform hshows.fields, ?_⟩
  rw [ModelOutline.view, hshows.package, hshows.kind, hshows.modifiers]

end Model

end ParcelCompanion
