import ParcelCompanion.Proofs.Model.CanonicalName

/-!
# Well-formed models

What a reader of a finished model relies on: every number that it meets stands for something, going
down from a type to its components ends, declared types have arguments for all type parameters or
none, and wildcards stand as type arguments only.
-/

namespace ParcelCompanion.Model

variable {m : Model}

/-- A number stands for a type that is no wildcard. -/
def IsProperType (m : Model) (id : TypeId) : Prop :=
  ∃ term, m.type? id = some term ∧ ∀ upper lower, term ≠ .wildcard upper lower

/-- The numbers in a model resolve, its types are made of earlier ones and have names, and its
wildcards are type arguments. -/
structure WellFormed (m : Model) : Prop where
  /-- Type arguments, elements of arrays and bounds of wildcards stand below what they are part
  of. -/
  components : ∀ id term, m.type? id = some term →
    ∀ c ∈ term.components, c.index < id.index ∧ ∃ component, m.type? c = some component
  /-- A declared type has no arguments or as many as its declaration has type parameters. -/
  declared : ∀ id decl args, m.type? id = some (.declared decl args) →
    ∃ d, m.declaration? decl = some d ∧ (args = [] ∨ args.length = d.parameters.length)
  /-- A type parameter is one of those of its owner. -/
  parameters : ∀ id owner index, m.type? id = some (.parameter owner index) →
    ∃ d, m.declaration? owner = some d ∧ index < d.parameters.length
  /-- The own type, superclass, interfaces and bounds of a declaration are there and no
  wildcards. -/
  references : ∀ id d, m.declaration? id = some d → ∀ t ∈ d.references, m.IsProperType t
  /-- The type of a field is there and no wildcard, and its declaration is there. -/
  fields : ∀ field ∈ m.elements,
    m.IsProperType field.type ∧ ∃ d, m.declaration? field.enclosing = some d
  /-- A wildcard has one bound at most. -/
  oneBound : ∀ id upper lower, m.type? id = some (.wildcard upper lower) →
    upper = none ∨ lower = none
  /-- Elements of arrays and bounds of wildcards are no wildcards. -/
  placement : ∀ id term, m.type? id = some term → (∀ decl args, term ≠ .declared decl args) →
    ∀ c ∈ term.components, m.IsProperType c
  /-- Every type has a canonical name, which is found within any depth beyond its number. -/
  names : ∀ id term, m.type? id = some term →
    ∃ name, m.canonicalName id = .ok name ∧
      ∀ depth, id.index < depth → m.nameWithin depth id = .ok name

lemma Usable.isProperType {id : TypeId} (h : m.Usable True id) : m.IsProperType id := by
  obtain ⟨term, hid, hproper⟩ := h
  refine ⟨term, hid, ?_⟩
  rintro upper lower rfl
  exact nomatch hproper trivial

/-- What is proper among the earlier types is proper in the model. -/
lemma isProperType_of_isProper {n : ℕ} {id : TypeId}
    (h : TypeTerm.IsProper (m.types.toList.take n) id) : m.IsProperType id := by
  obtain ⟨term, hid, hproper⟩ := h
  refine Usable.isProperType ⟨term, type?_eq_some_iff.mpr ?_, fun _ => hproper⟩
  exact getElem?_eq_some_of_prefix (List.take_prefix n _) hid

/-- Strictly coherent models are well formed. -/
lemma Coherent.wellFormed (h : m.Coherent True) : m.WellFormed where
  components id term hid c hc :=
    ⟨h.grounded id term hid c hc, h.grounded.type?_component hid hc⟩
  declared id decl args hid := by
    obtain ⟨⟨n, hn, hlength⟩, -⟩ := h.interned.admissible id _ hid
    obtain ⟨d, hd, rfl⟩ := Option.map_eq_some_iff.mp hn
    exact ⟨d, hd, hlength trivial⟩
  parameters id owner index hid := by
    obtain ⟨n, hn, hindex⟩ := h.interned.admissible id _ hid
    obtain ⟨d, hd, rfl⟩ := Option.map_eq_some_iff.mp hn
    exact ⟨d, hd, hindex⟩
  references id d hd t ht := (h.references id d hd t ht).isProperType
  fields field hfield := (h.fields field hfield).imp_left Usable.isProperType
  oneBound id upper lower hid := (h.interned.admissible id _ hid trivial).1
  placement id term hid hterm c hc := by
    have hadmissible := h.interned.admissible id term hid
    cases term with
    | declared decl args => exact absurd rfl (hterm decl args)
    | array element =>
      obtain rfl := List.mem_singleton.mp hc
      exact isProperType_of_isProper (hadmissible trivial)
    | wildcard upper lower => exact isProperType_of_isProper ((hadmissible trivial).2 c hc)
    | _ => exact nomatch hc
  names _ _ hid := h.exists_canonicalName h.grounded hid

end ParcelCompanion.Model
