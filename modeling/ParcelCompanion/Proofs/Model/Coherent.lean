import ParcelCompanion.Proofs.Model.Arena

/-!
# Coherent models

A model is coherent when its parts fit together: the arena of types was made of admissible types,
the table of names knows the declarations and nothing else, every declaration has its own type, and
whatever a declaration or a field refers to is there.  In the strict degree nothing but a type
argument is a wildcard.

Each of the four ways in which a model grows keeps it coherent: a new type, a new declaration, a new
field, and a change of what a declaration refers to.
-/

namespace ParcelCompanion.Model

variable {strict : Prop} {m m' : Model}

/-- The number of type parameters of a declaration. -/
def arity (m : Model) (id : DeclId) : Option ℕ :=
  (m.declaration? id).map fun d => d.parameters.length

/-- A type is there, and in the strict degree it is no wildcard. -/
def Usable (strict : Prop) (m : Model) (id : TypeId) : Prop :=
  ∃ term, m.type? id = some term ∧ (strict → term.isWildcard = false)

/-- A type is that of a declaration applied to its own `n` type parameters. -/
def IsSelfType (m : Model) (id : DeclId) (n : ℕ) (t : TypeId) : Prop :=
  ∃ args, m.type? t = some (.declared id args) ∧
    args.map m.type? = ((List.range n).map (.parameter id)).map some

/-- What the declarations and fields of a model refer to is there. -/
structure Linked (strict : Prop) (m : Model) : Prop where
  names : ∀ name id, m.lookup name = some id ↔ ∃ d, m.declaration? id = some d ∧ d.name = name
  selfTypes : ∀ id d, m.declaration? id = some d →
    m.IsSelfType id d.parameters.length d.selfType
  references : ∀ id d, m.declaration? id = some d → ∀ t ∈ d.references, m.Usable strict t
  fields : ∀ field ∈ m.elements,
    m.Usable strict field.type ∧ ∃ d, m.declaration? field.enclosing = some d

/-- The parts of a model fit together. -/
structure Coherent (strict : Prop) (m : Model) : Prop extends m.Linked strict where
  interned : m.Interned strict m.arity

/-! ### What extension keeps -/

lemma Extends.arity (h : m.Extends m') {id : DeclId} {n : ℕ} (hn : m.arity id = some n) :
    m'.arity id = some n := by
  obtain ⟨d, hd, rfl⟩ := Option.map_eq_some_iff.mp hn
  obtain ⟨d', hd', hbare⟩ := h.declaration? hd
  rw [Model.arity, hd', Option.map_some, Declaration.length_parameters_eq_of_bare hbare]

lemma Extends.usable (h : m.Extends m') {id : TypeId} (hid : m.Usable strict id) :
    m'.Usable strict id := by
  obtain ⟨term, hterm, hproper⟩ := hid
  exact ⟨term, h.type? hterm, hproper⟩

/-- Numbers that stand for given types go on to do so. -/
lemma Extends.map_type? (h : m.Extends m') {ids : List TypeId} {terms : List TypeTerm}
    (hids : ids.map m.type? = terms.map some) : ids.map m'.type? = terms.map some := by
  induction ids generalizing terms with
  | nil => simpa using hids
  | cons id ids ih =>
    cases terms with
    | nil => simp at hids
    | cons term terms =>
      rw [List.map_cons, List.map_cons, List.cons.injEq] at hids ⊢
      exact ⟨h.type? hids.1, ih hids.2⟩

lemma Extends.isSelfType (h : m.Extends m') {id : DeclId} {n : ℕ} {t : TypeId}
    (ht : m.IsSelfType id n t) : m'.IsSelfType id n t := by
  obtain ⟨args, hself, hargs⟩ := ht
  exact ⟨args, h.type? hself, h.map_type? hargs⟩

lemma Usable.isProper {id : TypeId} (h : m.Usable True id) :
    TypeTerm.IsProper m.types.toList id := by
  obtain ⟨term, hterm, hproper⟩ := h
  exact ⟨term, type?_eq_some_iff.mp hterm, hproper trivial⟩

/-- What is there for anyone, and for the strict degree if need be, is there in either degree. -/
lemma usable_of_type? {id : TypeId} {term : TypeTerm} (hid : m.type? id = some term)
    (h : strict → m.Usable True id) : m.Usable strict id := by
  refine ⟨term, hid, fun hs => ?_⟩
  obtain ⟨term', hid', hproper⟩ := h hs
  rw [hid] at hid'
  exact Option.some.inj hid' ▸ hproper trivial

/-- More types do not loosen the links between declarations, fields and types. -/
lemma Linked.of_extends (h : m.Linked strict) (hextends : m.Extends m')
    (hdecls : m'.declarations = m.declarations) (hnames : m'.declarationIds = m.declarationIds)
    (helements : m'.elements = m.elements) : m'.Linked strict := by
  have hdecl : m'.declaration? = m.declaration? := by
    funext id
    rw [declaration?, declaration?, hdecls]
  refine ⟨fun name id => ?_, fun id d hd => ?_, fun id d hd t ht => ?_, fun field hfield => ?_⟩
  · rw [hdecl, lookup, hnames]
    exact h.names name id
  · rw [hdecl] at hd
    exact hextends.isSelfType (h.selfTypes id d hd)
  · rw [hdecl] at hd
    exact hextends.usable (h.references id d hd t ht)
  · rw [helements] at hfield
    rw [hdecl]
    exact ⟨hextends.usable (h.fields field hfield).1, (h.fields field hfield).2⟩

/-! ### What coherent models know -/

/-- Distinct declarations have distinct names. -/
lemma Linked.name_injective (h : m.Linked strict) {a b : DeclId} {d e : Declaration}
    (ha : m.declaration? a = some d) (hb : m.declaration? b = some e) (hname : d.name = e.name) :
    a = b :=
  Option.some.inj (((h.names e.name a).mpr ⟨d, ha, hname⟩).symm.trans
    ((h.names e.name b).mpr ⟨e, hb, rfl⟩))

/-- The direct supertypes of a declaration are there. -/
lemma Linked.usable_of_mem_supertypes (h : m.Linked strict) {id : DeclId} {d : Declaration}
    (hd : m.declaration? id = some d) {t : TypeId} (ht : t ∈ d.supertypes) :
    m.Usable strict t := by
  refine h.references id d hd t ?_
  rw [Declaration.references]
  exact List.mem_append_left _ (List.mem_cons_of_mem _ ht)

/-- The own type of a declaration is there. -/
lemma Linked.usable_selfType (h : m.Linked strict) {id : DeclId} {d : Declaration}
    (hd : m.declaration? id = some d) : m.Usable strict d.selfType :=
  h.references id d hd d.selfType (Declaration.mem_references.mpr (Or.inl rfl))

/-- The declaration that a declared type applies is there. -/
lemma Coherent.declaration?_of_declared (h : m.Coherent strict) {id : TypeId} {decl : DeclId}
    {args : List TypeId} (hid : m.type? id = some (.declared decl args)) :
    ∃ d, m.declaration? decl = some d := by
  obtain ⟨⟨n, hn, -⟩, -⟩ := h.interned.admissible id _ hid
  obtain ⟨d, hd, -⟩ := Option.map_eq_some_iff.mp hn
  exact ⟨d, hd⟩

/-- The type parameter that a type stands for is there. -/
lemma Coherent.typeParameter_of_parameter (h : m.Coherent strict) {id : TypeId} {owner : DeclId}
    {index : ℕ} (hid : m.type? id = some (.parameter owner index)) :
    ∃ parameter, m.typeParameter owner index = .ok parameter := by
  obtain ⟨n, hn, hindex⟩ := h.interned.admissible id _ hid
  obtain ⟨d, hd, rfl⟩ := Option.map_eq_some_iff.mp hn
  exact ⟨d.parameters[index],
    typeParameter_eq_ok_iff.mpr ⟨d, hd, List.getElem?_eq_getElem hindex⟩⟩

/-! ### A new type -/

/-- A new admissible type keeps a model coherent. -/
lemma Coherent.intern (h : m.Coherent strict) {term : TypeTerm}
    (hterm : term.Admissible strict m.arity m.types.toList) :
    (m.intern term).2.Coherent strict := by
  obtain ⟨hdecls, hnames, helements⟩ := intern_frame m term
  have harity : (m.intern term).2.arity = m.arity := by
    funext id
    rw [arity, arity, declaration?, declaration?, hdecls]
  refine ⟨h.toLinked.of_extends (intern_extends m term) hdecls hnames helements, ?_⟩
  rw [harity]
  exact h.interned.intern hterm

/-! ### A new field -/

lemma insertElement_extends (m : Model) (field : Field) :
    m.Extends (m.insertElement field).2 :=
  ⟨List.prefix_rfl, List.prefix_rfl, by simp [insertElement]⟩

/-- A new field of a declaration that is there, with a type that is there, keeps a model
coherent. -/
lemma Coherent.insertElement (h : m.Coherent strict) {field : Field}
    (htype : m.Usable strict field.type)
    (henclosing : ∃ d, m.declaration? field.enclosing = some d) :
    (m.insertElement field).2.Coherent strict := by
  refine ⟨⟨h.names, h.selfTypes, h.references, fun other hother => ?_⟩,
    h.interned.table, h.interned.admissible⟩
  rcases Array.mem_push.mp hother with hold | rfl
  · exact h.fields other hold
  · exact ⟨htype, henclosing⟩

end ParcelCompanion.Model
