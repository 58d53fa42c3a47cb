import ParcelCompanion.Model.Hierarchy
import ParcelCompanion.Proofs.Answer
import ParcelCompanion.Proofs.Lists

/-!
# Models that extend one another

Building a model only ever adds to it.  A model `m'` extends `m` when the types, declarations and
fields of `m` stand under the same numbers in `m'`, where a declaration may meanwhile have come by
bounds, a superclass and interfaces.  What it has from the start is its `bare` form.

Numbers therefore never change their meaning: whatever resolves in a model resolves to the same
thing in every model that extends it.
-/

namespace ParcelCompanion

/-- Type numbers are equal when their indices are. -/
lemma TypeId.eq_of_index_eq {a b : TypeId} (h : a.index = b.index) : a = b := by
  cases a
  cases b
  exact congrArg _ h

/-- Declaration numbers are equal when their indices are. -/
lemma DeclId.eq_of_index_eq {a b : DeclId} (h : a.index = b.index) : a = b := by
  cases a
  cases b
  exact congrArg _ h

namespace Declaration

/-- A declaration as it was registered: without bounds, superclass and interfaces. -/
def bare (d : Declaration) : Declaration :=
  { d with
    parameters := d.parameters.map fun parameter => { parameter with bounds := [] }
    superclass := none
    interfaces := [] }

/-- All types that a declaration refers to. -/
def references (d : Declaration) : List TypeId :=
  d.selfType :: d.supertypes ++ d.parameters.flatMap TypeParameter.bounds

lemma mem_supertypes {d : Declaration} {t : TypeId} :
    t ∈ d.supertypes ↔ d.superclass = some t ∨ t ∈ d.interfaces := by
  simp [supertypes]

lemma mem_references {d : Declaration} {t : TypeId} :
    t ∈ d.references ↔ t = d.selfType ∨ d.superclass = some t ∨ t ∈ d.interfaces ∨
      ∃ parameter ∈ d.parameters, t ∈ parameter.bounds := by
  simp [references, supertypes]

section Bare

variable {d d' : Declaration} (h : d.bare = d'.bare)

include h

lemma name_eq_of_bare : d.name = d'.name := by
  simpa only [bare] using congrArg Declaration.name h

lemma package_eq_of_bare : d.package = d'.package := by
  simpa only [bare] using congrArg Declaration.package h

lemma selfType_eq_of_bare : d.selfType = d'.selfType := by
  simpa only [bare] using congrArg Declaration.selfType h

/-- The bare form fixes the number of type parameters. -/
lemma length_parameters_eq_of_bare : d.parameters.length = d'.parameters.length := by
  simpa only [bare, List.length_map] using congrArg (fun d => d.parameters.length) h

/-- The bare form fixes the names of the type parameters. -/
lemma parameterNames_eq_of_bare :
    d.parameters.map TypeParameter.name = d'.parameters.map TypeParameter.name := by
  simpa [bare, Function.comp_def] using congrArg (fun d => d.parameters.map TypeParameter.name) h

/-- The bare form fixes the name of the type parameter at a position. -/
lemma exists_parameter_of_bare {index : ℕ} {parameter : TypeParameter}
    (hparameter : d.parameters[index]? = some parameter) :
    ∃ parameter', d'.parameters[index]? = some parameter' ∧ parameter'.name = parameter.name := by
  have hnames := parameterNames_eq_of_bare h
  have hname : (d'.parameters.map TypeParameter.name)[index]? = some parameter.name := by
    rw [← hnames, List.getElem?_map, hparameter, Option.map_some]
  rw [List.getElem?_map] at hname
  exact Option.map_eq_some_iff.mp hname

end Bare

end Declaration

namespace Model

variable {m m' m'' : Model}

/-! ### Looking things up by number -/

lemma type?_eq_some_iff {id : TypeId} {term : TypeTerm} :
    m.type? id = some term ↔ m.types.toList[id.index]? = some term := by
  rw [type?, Array.getElem?_toList]

lemma index_lt_of_type? {id : TypeId} {term : TypeTerm} (h : m.type? id = some term) :
    id.index < m.types.size :=
  (Array.getElem?_eq_some_iff.mp h).1

lemma index_lt_of_declaration? {id : DeclId} {d : Declaration} (h : m.declaration? id = some d) :
    id.index < m.declarations.size :=
  (Array.getElem?_eq_some_iff.mp h).1

lemma mem_of_declaration? {id : DeclId} {d : Declaration} (h : m.declaration? id = some d) :
    d ∈ m.declarations.toList := by
  rw [declaration?, ← Array.getElem?_toList] at h
  exact List.mem_of_getElem? h

/-- A type is answered exactly when it is there. -/
lemma type_eq_ok_iff {id : TypeId} {term : TypeTerm} :
    m.type id = .ok term ↔ m.type? id = some term := by
  unfold type
  cases m.type? id <;> simp

/-- A declaration is answered exactly when it is there. -/
lemma declaration_eq_ok_iff {id : DeclId} {d : Declaration} :
    m.declaration id = .ok d ↔ m.declaration? id = some d := by
  unfold declaration
  cases m.declaration? id <;> simp

/-- Asking for a declaration that is not there fails. -/
lemma declaration_of_eq_none {id : DeclId} (hid : m.declaration? id = none) :
    m.declaration id = .error (.unknownDeclaration id) := by
  rw [declaration, hid]

/-- A field is answered exactly when it is there. -/
lemma element_eq_ok_iff {id : ElementId} {field : Field} :
    m.element id = .ok field ↔ m.elements[id.index]? = some field := by
  unfold element
  cases m.elements[id.index]? <;> simp

/-- A type parameter is answered exactly when its owner has one at the position. -/
lemma typeParameter_eq_ok_iff {owner : DeclId} {index : ℕ} {parameter : TypeParameter} :
    m.typeParameter owner index = .ok parameter ↔
      ∃ d, m.declaration? owner = some d ∧ d.parameters[index]? = some parameter := by
  rw [typeParameter, bind_eq_ok_iff]
  simp only [declaration_eq_ok_iff]
  constructor
  · rintro ⟨d, hd, h⟩
    refine ⟨d, hd, ?_⟩
    split at h
    · next hp => rw [hp, pure_eq_ok_iff.mp h]
    · exact nomatch h
  · rintro ⟨d, hd, hp⟩
    refine ⟨d, hd, ?_⟩
    rw [hp]
    rfl

/-! ### Extension -/

/-- All that `m` holds stands in `m'` under the same numbers. -/
structure Extends (m m' : Model) : Prop where
  types : m.types.toList <+: m'.types.toList
  declarations :
    m.declarations.toList.map Declaration.bare <+: m'.declarations.toList.map Declaration.bare
  elements : m.elements.toList <+: m'.elements.toList

namespace Extends

protected lemma refl (m : Model) : m.Extends m :=
  ⟨List.prefix_rfl, List.prefix_rfl, List.prefix_rfl⟩

protected lemma trans (h : m.Extends m') (h' : m'.Extends m'') : m.Extends m'' :=
  ⟨h.types.trans h'.types, h.declarations.trans h'.declarations, h.elements.trans h'.elements⟩

/-- A type number keeps its type. -/
lemma type? (h : m.Extends m') {id : TypeId} {term : TypeTerm} (ht : m.type? id = some term) :
    m'.type? id = some term := by
  rw [type?_eq_some_iff] at ht ⊢
  exact getElem?_eq_some_of_prefix h.types ht

/-- A declaration number keeps its declaration, up to what is added to it later. -/
lemma declaration? (h : m.Extends m') {id : DeclId} {d : Declaration}
    (hd : m.declaration? id = some d) : ∃ d', m'.declaration? id = some d' ∧ d'.bare = d.bare := by
  have hbare : (m.declarations.toList.map Declaration.bare)[id.index]? = some d.bare := by
    rw [List.getElem?_map, Array.getElem?_toList]
    exact congrArg _ hd
  have hbare' := getElem?_eq_some_of_prefix h.declarations hbare
  rw [List.getElem?_map, Array.getElem?_toList] at hbare'
  exact Option.map_eq_some_iff.mp hbare'

/-- An element number keeps its field. -/
lemma element (h : m.Extends m') {id : ElementId} {field : Field}
    (hfield : m.element id = .ok field) : m'.element id = .ok field := by
  rw [element_eq_ok_iff, ← Array.getElem?_toList] at hfield ⊢
  exact getElem?_eq_some_of_prefix h.elements hfield

end Extends

end Model

end ParcelCompanion
