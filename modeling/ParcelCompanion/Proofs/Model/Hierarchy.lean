import Mathlib.Data.List.Chain
import ParcelCompanion.Proofs.Model.Declare

/-!
# The hierarchy of a model

The declarations of a model and their direct supertypes form a directed graph.  A circle in it is
told by the names that it goes through.  Finishing a model completes the graph first: the root class
becomes the superclass of every class and enum that has none.
-/

namespace ParcelCompanion.Model

variable {strict : Prop} {m m' : Model}

/-! ### Direct supertypes -/

/-- One declaration has another as its superclass or as one of its interfaces. -/
def DirectSuper (m : Model) (a b : DeclId) : Prop :=
  ∃ d, m.declaration? a = some d ∧
    ∃ t args, (d.superclass = some t ∨ t ∈ d.interfaces) ∧ m.type? t = some (.declared b args)

/-- The qualified name of a declaration. -/
def name? (m : Model) (id : DeclId) : Option String :=
  (m.declaration? id).map Declaration.name

/-- Following the first name through the others leads back to it along direct supertypes, and no
other name is repeated. -/
def IsCircle (m : Model) (names : List String) : Prop :=
  ∃ (name : String) (others : List String) (first : DeclId) (between : List DeclId),
    names = name :: others ++ [name] ∧ (name :: others).Nodup ∧
      (first :: between).map m.name? = (name :: others).map some ∧
      (first :: between ++ [first]).IsChain m.DirectSuper

lemma directSuper_of_mem_supertypes {a b : DeclId} {d : Declaration} {t : TypeId}
    {args : List TypeId} (ha : m.declaration? a = some d) (ht : t ∈ d.supertypes)
    (hb : m.type? t = some (.declared b args)) : m.DirectSuper a b := by
  exact ⟨d, ha, t, args, Declaration.mem_supertypes.mp ht, hb⟩

/-- In a coherent model direct supertypes are declarations of the model. -/
lemma Coherent.declaration?_of_directSuper (h : m.Coherent strict) {a b : DeclId}
    (hab : m.DirectSuper a b) : ∃ d, m.declaration? b = some d := by
  obtain ⟨-, -, t, args, -, hb⟩ := hab
  exact h.declaration?_of_declared hb

/-- Whoever goes around a circle comes back to where it began. -/
lemma IsCircle.transGen {names : List String} (h : m.IsCircle names) :
    ∃ id, Relation.TransGen m.DirectSuper id id := by
  obtain ⟨-, -, first, between, -, -, -, hchain⟩ := h
  refine ⟨first, ?_⟩
  cases between with
  | nil => exact .single (List.isChain_pair.mp hchain)
  | cons next between =>
    obtain ⟨hnext, hrest⟩ := List.isChain_cons_cons.mp hchain
    exact .head' hnext (List.relationReflTransGen_of_exists_isChain_cons _ hrest (by simp))

/-- No circle can be reached by going up from a declaration. -/
def NoCircleAbove (m : Model) (id : DeclId) : Prop :=
  ∀ x, Relation.ReflTransGen m.DirectSuper id x → ¬ Relation.TransGen m.DirectSuper x x

/-- What is above a declaration is above one of its direct supertypes. -/
lemma noCircleAbove_of_directSuper {id : DeclId}
    (h : ∀ next, m.DirectSuper id next → m.NoCircleAbove next) : m.NoCircleAbove id := by
  intro x hx hcircle
  rcases hx.cases_head with rfl | ⟨next, hnext, hrest⟩
  · obtain ⟨next, hnext, hback⟩ := Relation.TransGen.head'_iff.mp hcircle
    exact h next hnext id hback hcircle
  · exact h next hnext x hrest hcircle

/-- Distinct declarations of a model are at most as many as it has. -/
lemma length_le_of_nodup {ids : List DeclId} (hnodup : ids.Nodup)
    (hids : ∀ id ∈ ids, ∃ d, m.declaration? id = some d) : ids.length ≤ m.declarations.size := by
  have hrange : ids ⊆ (List.range m.declarations.size).map DeclId.mk := by
    intro id hid
    obtain ⟨d, hd⟩ := hids id hid
    exact List.mem_map.mpr ⟨id.index, List.mem_range.mpr (index_lt_of_declaration? hd), rfl⟩
  simpa using List.Nodup.length_le_of_subset hnodup hrange

/-! ### Implicit superclasses -/

/-- `m'` is `m` with the type `root` of the root class made the superclass of every other class and
enum that has none. -/
structure IsCompletion (m m' : Model) (root : TypeId) : Prop where
  lookup_object : m.lookup objectName = some object
  type?_root : m.type? root = some (.declared object [])
  types : m'.types = m.types
  typeIds : m'.typeIds = m.typeIds
  declarationIds : m'.declarationIds = m.declarationIds
  elements : m'.elements = m.elements
  declaration?_eq : ∀ id, m'.declaration? id = (m.declaration? id).map fun d =>
    if id ≠ object ∧ d.superclass = none ∧ (d.kind = .classType ∨ d.kind = .enumType) then
      { d with superclass := some root }
    else d

lemma declaration?_withImplicitSuperclasses (m : Model) (root : TypeId) (id : DeclId) :
    (m.withImplicitSuperclasses root).declaration? id = (m.declaration? id).map fun d =>
      if impliesSuperclass id d then { d with superclass := some root } else d :=
  Array.getElem?_mapIdx

/-- Superclasses do not belong to the bare form of a declaration. -/
lemma withImplicitSuperclasses_redeclares (m : Model) (root : TypeId) :
    m.Redeclares (m.withImplicitSuperclasses root) := by
  refine ⟨rfl, rfl, rfl, rfl, Array.ext_getElem? fun i => ?_⟩
  rw [withImplicitSuperclasses, Array.getElem?_map, Array.getElem?_mapIdx, Array.getElem?_map,
    Option.map_map]
  refine Option.map_congr fun d _ => ?_
  rw [Function.comp_apply]
  split <;> rfl

/-- A model stays coherent when a type that is there becomes the implicit superclass. -/
lemma Coherent.withImplicitSuperclasses (h : m.Coherent strict) {root : TypeId}
    (hroot : m.Usable strict root) : (m.withImplicitSuperclasses root).Coherent strict := by
  refine h.redeclare (withImplicitSuperclasses_redeclares m root) fun id d' hd' t ht => ?_
  rw [declaration?_withImplicitSuperclasses] at hd'
  obtain ⟨d, hd, rfl⟩ := Option.map_eq_some_iff.mp hd'
  split at ht
  · rw [Declaration.mem_references] at ht
    rcases ht with hself | hsuper | hrest
    · exact h.references id d hd t (Declaration.mem_references.mpr (Or.inl hself))
    · exact Option.some.inj hsuper ▸ hroot
    · exact h.references id d hd t (Declaration.mem_references.mpr (Or.inr (Or.inr hrest)))
  · exact h.references id d hd t ht

/-- The implicit superclasses complete a model whose root class is as on the platform. -/
lemma withImplicitSuperclasses_isCompletion {root : TypeId}
    (hobject : m.lookup objectName = some object)
    (hroot : m.type? root = some (.declared object [])) :
    m.IsCompletion (m.withImplicitSuperclasses root) root := by
  refine ⟨hobject, hroot, rfl, rfl, rfl, rfl, fun id => ?_⟩
  rw [declaration?_withImplicitSuperclasses]
  refine Option.map_congr fun d _ => ?_
  simp [impliesSuperclass, and_assoc]

/-! ### The root class -/

/-- Every coherent model that grew out of the platform has the root class as its first declaration,
without type parameters. -/
lemma Coherent.root (h : m.Coherent strict) (hplatform : platform.Extends m) :
    ∃ d, m.declaration? object = some d ∧ m.lookup objectName = some object ∧
      m.type? d.selfType = some (.declared object []) := by
  have hroot : (platform.declaration? object).map (fun d => (d.name, d.parameters.length)) =
      some (objectName, 0) := by
    decide +kernel
  obtain ⟨o, ho, hname⟩ := Option.map_eq_some_iff.mp hroot
  obtain ⟨hname, hparameters⟩ := Prod.mk.inj hname
  obtain ⟨d, hd, hbare⟩ := hplatform.declaration? ho
  refine ⟨d, hd, (h.names objectName object).mpr ⟨d, hd, ?_⟩, ?_⟩
  · exact (Declaration.name_eq_of_bare hbare).trans hname
  · obtain ⟨args, hself, hargs⟩ := h.selfTypes object d hd
    rw [Declaration.length_parameters_eq_of_bare hbare, hparameters, List.range_zero,
      List.map_nil, List.map_nil, List.map_eq_nil_iff] at hargs
    rwa [hargs] at hself

end ParcelCompanion.Model
