import ParcelCompanion.Proofs.Model.CanonicalName
import ParcelCompanion.Written.Type

/-!
# Types without numbers

The numbers of types and declarations depend on the order in which a model was built.  A `TypeTree`
says the same as a type without numbers: declarations are told by their qualified names, and
components are parts of the tree.  `Denotes` relates the types of a model to trees.  A type denotes
one tree only, and this does not change when the model grows.
-/

namespace ParcelCompanion

/-- A type, where declarations and the owners of type parameters are told by qualified names. -/
inductive TypeTree where
  | primitive (kind : Primitive)
  | declared (name : String) (args : List TypeTree)
  /-- The type parameter at a position, together with its name. -/
  | parameter (owner : String) (index : ℕ) (name : String)
  | array (element : TypeTree)
  | wildcard
  | bounded (kind : BoundKind) (bound : TypeTree)
  | unresolved (name : String)

namespace TypeTree

mutual

/-- The canonical name of a tree. -/
def name : TypeTree → String
  | .primitive kind => kind.keyword
  | .declared name args =>
    if args.isEmpty then name else name ++ "<" ++ String.intercalate "," (names args) ++ ">"
  | .parameter _ _ name => name
  | .array element => element.name ++ "[]"
  | .wildcard => "?"
  | .bounded kind bound => "? " ++ kind.keyword ++ " " ++ bound.name
  | .unresolved name => name

/-- The canonical names of several trees. -/
def names : List TypeTree → List String
  | [] => []
  | tree :: trees => tree.name :: names trees

end

end TypeTree

namespace Model

variable {strict : Prop} {m m' : Model} {id : TypeId} {ids : List TypeId}

/-! ### What types denote -/

mutual

/-- A type of the model says the same as a tree. -/
def Denotes (m : Model) (id : TypeId) : TypeTree → Prop
  | .primitive kind => m.type? id = some (.primitive kind)
  | .declared name args => ∃ decl d ids, m.type? id = some (.declared decl ids) ∧
      m.declaration? decl = some d ∧ d.name = name ∧ m.DenotesAll ids args
  | .parameter owner index name => ∃ decl d parameter,
      m.type? id = some (.parameter decl index) ∧ m.declaration? decl = some d ∧
        d.name = owner ∧ d.parameters[index]? = some parameter ∧ parameter.name = name
  | .array element => ∃ component, m.type? id = some (.array component) ∧
      m.Denotes component element
  | .wildcard => m.type? id = some (.wildcard none none)
  | .bounded .upper bound => ∃ component, m.type? id = some (.wildcard (some component) none) ∧
      m.Denotes component bound
  | .bounded .lower bound => ∃ component, m.type? id = some (.wildcard none (some component)) ∧
      m.Denotes component bound
  | .unresolved name => m.type? id = some (.unresolved name)

/-- Several types of the model say the same as trees. -/
def DenotesAll (m : Model) (ids : List TypeId) : List TypeTree → Prop
  | [] => ids = []
  | tree :: trees => ∃ id rest, ids = id :: rest ∧ m.Denotes id tree ∧ m.DenotesAll rest trees

end

lemma denotesAll_iff {trees : List TypeTree} :
    m.DenotesAll ids trees ↔ List.Forall₂ m.Denotes ids trees := by
  induction trees generalizing ids with
  | nil => simp [DenotesAll]
  | cons tree trees ih =>
    rw [DenotesAll, List.forall₂_cons_right_iff]
    simp only [ih]
    constructor
    · rintro ⟨id, rest, rfl, hid, hrest⟩
      exact ⟨id, rest, hid, hrest, rfl⟩
    · rintro ⟨id, rest, hid, hrest, rfl⟩
      exact ⟨id, rest, rfl, hid, hrest⟩

lemma DenotesAll.length_eq {trees : List TypeTree} (h : m.DenotesAll ids trees) :
    ids.length = trees.length :=
  (denotesAll_iff.mp h).length_eq

/-- A type that denotes a tree is there. -/
lemma Denotes.exists_type? {tree : TypeTree} (h : m.Denotes id tree) :
    ∃ term, m.type? id = some term := by
  cases tree with
  | primitive kind => exact ⟨_, h⟩
  | declared name args =>
    obtain ⟨_, _, _, hid, _⟩ := h
    exact ⟨_, hid⟩
  | parameter owner index name =>
    obtain ⟨_, _, _, hid, _⟩ := h
    exact ⟨_, hid⟩
  | array element =>
    obtain ⟨_, hid, _⟩ := h
    exact ⟨_, hid⟩
  | wildcard => exact ⟨_, h⟩
  | bounded kind bound =>
    cases kind <;> obtain ⟨_, hid, _⟩ := h <;> exact ⟨_, hid⟩
  | unresolved name => exact ⟨_, h⟩

/-- Types that denote trees are there. -/
lemma DenotesAll.exists_type? {trees : List TypeTree} (h : m.DenotesAll ids trees) :
    ∀ id ∈ ids, ∃ term, m.type? id = some term := by
  rw [denotesAll_iff] at h
  induction h with
  | nil => exact nofun
  | cons hid _ ih => exact List.forall_mem_cons.mpr ⟨hid.exists_type?, ih⟩

mutual

/-- A type denotes in a larger model what it denotes in a smaller one. -/
lemma Denotes.of_extends (hext : m.Extends m') {id : TypeId} {tree : TypeTree}
    (h : m.Denotes id tree) : m'.Denotes id tree := by
  match tree with
  | .primitive kind => exact hext.type? h
  | .declared name args =>
    obtain ⟨decl, d, ids, hid, hd, hname, hargs⟩ := h
    obtain ⟨d', hd', hbare⟩ := hext.declaration? hd
    exact ⟨decl, d', ids, hext.type? hid, hd',
      (Declaration.name_eq_of_bare hbare).trans hname, hargs.of_extends hext⟩
  | .parameter owner index name =>
    obtain ⟨decl, d, parameter, hid, hd, howner, hparameter, hname⟩ := h
    obtain ⟨d', hd', hbare⟩ := hext.declaration? hd
    obtain ⟨parameter', hparameter', hname'⟩ :=
      Declaration.exists_parameter_of_bare hbare.symm hparameter
    exact ⟨decl, d', parameter', hext.type? hid, hd',
      (Declaration.name_eq_of_bare hbare).trans howner, hparameter', hname'.trans hname⟩
  | .array element =>
    obtain ⟨component, hid, hcomponent⟩ := h
    exact ⟨component, hext.type? hid, hcomponent.of_extends hext⟩
  | .wildcard => exact hext.type? h
  | .bounded .upper bound =>
    obtain ⟨component, hid, hcomponent⟩ := h
    exact ⟨component, hext.type? hid, hcomponent.of_extends hext⟩
  | .bounded .lower bound =>
    obtain ⟨component, hid, hcomponent⟩ := h
    exact ⟨component, hext.type? hid, hcomponent.of_extends hext⟩
  | .unresolved name => exact hext.type? h
termination_by structural tree

lemma DenotesAll.of_extends (hext : m.Extends m') {ids : List TypeId} {trees : List TypeTree}
    (h : m.DenotesAll ids trees) : m'.DenotesAll ids trees := by
  match trees with
  | [] => exact h
  | tree :: trees =>
    obtain ⟨id, rest, hids, hid, hrest⟩ := h
    exact ⟨id, rest, hids, hid.of_extends hext, hrest.of_extends hext⟩
termination_by structural trees

end

/-! ### One tree for each type -/

mutual

/-- Trees that the same type denotes are the same. -/
lemma Denotes.unique {id : TypeId} {tree tree' : TypeTree} (h : m.Denotes id tree)
    (h' : m.Denotes id tree') : tree = tree' := by
  match tree with
  | .primitive kind =>
    have hid : m.type? id = some (.primitive kind) := h
    rcases tree' with _ | _ | _ | _ | _ | ⟨_ | _, _⟩ | _ <;> simp [Denotes, hid] at h'
    rw [h']
  | .declared name args =>
    obtain ⟨decl, d, ids, hid, hd, rfl, hargs⟩ := h
    rcases tree' with _ | ⟨name', args'⟩ | _ | _ | _ | ⟨_ | _, _⟩ | _ <;> simp [Denotes, hid] at h'
    obtain ⟨d', hd', rfl, hargs'⟩ := h'
    obtain rfl := Option.some.inj (hd.symm.trans hd')
    rw [hargs.unique hargs']
  | .parameter owner index name =>
    obtain ⟨decl, d, parameter, hid, hd, rfl, hparameter, rfl⟩ := h
    rcases tree' with _ | _ | _ | _ | _ | ⟨_ | _, _⟩ | _ <;> simp [Denotes, hid] at h'
    obtain ⟨rfl, d', hd', rfl, parameter', hparameter', rfl⟩ := h'
    obtain rfl := Option.some.inj (hd.symm.trans hd')
    obtain rfl := Option.some.inj (hparameter.symm.trans hparameter')
    rfl
  | .array element =>
    obtain ⟨component, hid, hcomponent⟩ := h
    rcases tree' with _ | _ | _ | _ | _ | ⟨_ | _, _⟩ | _ <;> simp [Denotes, hid] at h'
    rw [hcomponent.unique h']
  | .wildcard =>
    have hid : m.type? id = some (.wildcard none none) := h
    rcases tree' with _ | _ | _ | _ | _ | ⟨_ | _, _⟩ | _ <;> simp [Denotes, hid] at h'
    rfl
  | .bounded .upper bound =>
    obtain ⟨component, hid, hcomponent⟩ := h
    rcases tree' with _ | _ | _ | _ | _ | ⟨_ | _, _⟩ | _ <;> simp [Denotes, hid] at h'
    rw [hcomponent.unique h']
  | .bounded .lower bound =>
    obtain ⟨component, hid, hcomponent⟩ := h
    rcases tree' with _ | _ | _ | _ | _ | ⟨_ | _, _⟩ | _ <;> simp [Denotes, hid] at h'
    rw [hcomponent.unique h']
  | .unresolved name =>
    have hid : m.type? id = some (.unresolved name) := h
    rcases tree' with _ | _ | _ | _ | _ | ⟨_ | _, _⟩ | _ <;> simp [Denotes, hid] at h'
    rw [h']
termination_by structural tree

lemma DenotesAll.unique {ids : List TypeId} {trees trees' : List TypeTree}
    (h : m.DenotesAll ids trees) (h' : m.DenotesAll ids trees') : trees = trees' := by
  match trees with
  | [] =>
    obtain rfl : ids = [] := h
    cases trees' with
    | nil => rfl
    | cons tree' trees' =>
      obtain ⟨_, _, hnil, -⟩ := h'
      exact nomatch hnil
  | tree :: trees =>
    obtain ⟨id, rest, rfl, hid, hrest⟩ := h
    cases trees' with
    | nil => exact nomatch h'
    | cons tree' trees' =>
      obtain ⟨_, _, heq, hid', hrest'⟩ := h'
      obtain ⟨rfl, rfl⟩ := List.cons.inj heq
      rw [hid.unique hid', hrest.unique hrest']
termination_by structural trees

end

/-! ### Canonical names -/

/-- The spelling of a type depends on the names of its components only. -/
lemma spell_congr {name name' : TypeId → Except ModelError String} {term : TypeTerm}
    (h : ∀ c ∈ term.components, name c = name' c) : m.spell name term = m.spell name' term := by
  rcases term with _ | ⟨decl, _ | ⟨arg, args⟩⟩ | _ | element | ⟨_ | upper, _ | lower⟩ | _
  all_goals try rfl
  · have hargs : (arg :: args).mapM name = (arg :: args).mapM name' := mapM_congr h
    rw [spell, spell, hargs]
  · rw [spell, spell, h element (by simp [TypeTerm.components])]
  · rw [spell, spell, h lower (by simp [TypeTerm.components])]
  · rw [spell, spell, h upper (by simp [TypeTerm.components])]
  · rw [spell, spell, h upper (by simp [TypeTerm.components])]

/-- The canonical name of a type is spelled out of those of its components. -/
lemma Coherent.canonicalName_eq (h : m.Coherent True) {term : TypeTerm}
    (hid : m.type? id = some term) : m.canonicalName id = m.spell m.canonicalName term := by
  have hlt := index_lt_of_type? hid
  rw [canonicalName, nameWithin_succ hid]
  refine spell_congr fun c hc => ?_
  obtain ⟨component, hcomponent⟩ := h.grounded.type?_component hid hc
  obtain ⟨name, hname, hdepth⟩ := h.exists_canonicalName h.grounded hcomponent
  rw [hname, hdepth _ (Nat.lt_trans (h.grounded id term hid c hc) hlt)]

end Model

end ParcelCompanion
