import ParcelCompanion.Proofs.Model.Coherent

/-!
# Declarations that come and change

A model stays coherent when a declaration with a new name is registered and when the references of
its declarations are replaced by others to types that are there.  Registering interns the own type
of a declaration before the declaration itself is in place, so in between the arena is judged by
the number of type parameters that the declaration is going to have.
-/

namespace ParcelCompanion.Model

variable {strict : Prop} {m m' : Model}

/-! ### New references -/

/-- Two models differ at most in what their declarations refer to. -/
structure Redeclares (m m' : Model) : Prop where
  types : m'.types = m.types
  typeIds : m'.typeIds = m.typeIds
  declarationIds : m'.declarationIds = m.declarationIds
  elements : m'.elements = m.elements
  declarations : m'.declarations.map Declaration.bare = m.declarations.map Declaration.bare

namespace Redeclares

lemma toExtends (h : m.Redeclares m') : m.Extends m' := by
  have hlist := congrArg Array.toList h.declarations
  rw [Array.toList_map, Array.toList_map] at hlist
  exact ⟨h.types ▸ List.prefix_rfl, hlist ▸ List.prefix_rfl, h.elements ▸ List.prefix_rfl⟩

lemma type?_eq (h : m.Redeclares m') : m'.type? = m.type? := by
  funext id
  rw [type?, type?, h.types]

/-- A model that redeclares another has the same declarations up to what they refer to. -/
lemma map_bare (h : m.Redeclares m') (id : DeclId) :
    (m'.declaration? id).map Declaration.bare = (m.declaration? id).map Declaration.bare := by
  rw [declaration?, declaration?, ← Array.getElem?_map, ← Array.getElem?_map, h.declarations]

lemma declaration? (h : m.Redeclares m') {id : DeclId} {d' : Declaration}
    (hd : m'.declaration? id = some d') :
    ∃ d, m.declaration? id = some d ∧ d.bare = d'.bare := by
  have hbare := h.map_bare id
  rw [hd, Option.map_some] at hbare
  exact Option.map_eq_some_iff.mp hbare.symm

lemma arity_eq (h : m.Redeclares m') : m'.arity = m.arity := by
  funext id
  have hlength : ∀ d : Declaration, d.parameters.length = d.bare.parameters.length := by
    intro d
    rw [Declaration.bare, List.length_map]
  have hmap := congrArg (Option.map fun d => d.parameters.length) (h.map_bare id)
  simpa only [arity, Option.map_map, Function.comp_def, ← hlength] using hmap

end Redeclares

/-- New references of declarations to types that are there keep a model coherent. -/
lemma Coherent.redeclare (h : m.Coherent strict) (hm : m.Redeclares m')
    (hreferences : ∀ id d, m'.declaration? id = some d → ∀ t ∈ d.references, m.Usable strict t) :
    m'.Coherent strict := by
  refine ⟨⟨fun name id => ?_, fun id d hd => ?_,
    fun id d hd t ht => hm.toExtends.usable (hreferences id d hd t ht), fun field hfield => ?_⟩,
    fun term id => ?_, fun id term hid => ?_⟩
  · rw [lookup, hm.declarationIds]
    refine (h.names name id).trans ⟨?_, ?_⟩
    · rintro ⟨d, hd, hname⟩
      obtain ⟨d', hd', hbare⟩ := hm.toExtends.declaration? hd
      exact ⟨d', hd', (Declaration.name_eq_of_bare hbare).trans hname⟩
    · rintro ⟨d', hd', hname⟩
      obtain ⟨d, hd, hbare⟩ := hm.declaration? hd'
      exact ⟨d, hd, (Declaration.name_eq_of_bare hbare).trans hname⟩
  · obtain ⟨d', hd', hbare⟩ := hm.declaration? hd
    rw [← Declaration.selfType_eq_of_bare hbare, ← Declaration.length_parameters_eq_of_bare hbare]
    exact hm.toExtends.isSelfType (h.selfTypes id d' hd')
  · rw [hm.elements] at hfield
    obtain ⟨htype, d, hd⟩ := h.fields field hfield
    obtain ⟨d', hd', -⟩ := hm.toExtends.declaration? hd
    exact ⟨hm.toExtends.usable htype, d', hd'⟩
  · rw [hm.typeIds, hm.type?_eq]
    exact h.interned.table term id
  · rw [hm.type?_eq] at hid
    rw [hm.types, hm.arity_eq]
    exact h.interned.admissible id term hid

/-- A change of one declaration that keeps its bare form. -/
lemma modifyDeclaration_redeclares (m : Model) (id : DeclId) {change : Declaration → Declaration}
    (hbare : ∀ d, (change d).bare = d.bare) : m.Redeclares (m.modifyDeclaration id change) := by
  refine ⟨rfl, rfl, rfl, rfl, ?_⟩
  apply Array.ext_getElem?
  intro i
  rw [modifyDeclaration, Array.getElem?_map, Array.getElem?_map, Array.getElem?_modify]
  split
  · rw [Option.map_map]
    exact Option.map_congr fun d _ => hbare d
  · rfl

/-- A changed declaration may refer to what it referred to before and to types that are there. -/
lemma Coherent.modifyDeclaration (h : m.Coherent strict) {id : DeclId}
    {change : Declaration → Declaration} (hbare : ∀ d, (change d).bare = d.bare)
    (hreferences : ∀ d, m.declaration? id = some d → ∀ t ∈ (change d).references,
      t ∈ d.references ∨ m.Usable strict t) :
    (m.modifyDeclaration id change).Coherent strict := by
  refine h.redeclare (modifyDeclaration_redeclares m id hbare) fun other d' hd' t ht => ?_
  rw [declaration?, Model.modifyDeclaration, Array.getElem?_modify] at hd'
  split at hd'
  · next hid =>
    obtain ⟨d, hd, rfl⟩ := Option.map_eq_some_iff.mp hd'
    rw [← hid] at hd
    rcases hreferences d hd t ht with hold | hnew
    · exact h.references id d hd t hold
    · exact hnew
  · exact h.references other d' hd' t ht

/-! ### The own type of a new declaration -/

/-- The own type of a declaration with `n` type parameters, and the model in which it and the
parameters are interned. -/
def internSelfType (m : Model) (id : DeclId) (n : ℕ) : TypeId × Model :=
  let terms := (List.range n).map (.parameter id)
  (m.internAll terms).2.intern (.declared id (m.internAll terms).1)

lemma internSelfType_extends (m : Model) (id : DeclId) (n : ℕ) :
    m.Extends (m.internSelfType id n).2 :=
  (internAll_extends m _).trans (intern_extends _ _)

lemma internSelfType_frame (m : Model) (id : DeclId) (n : ℕ) :
    (m.internSelfType id n).2.declarations = m.declarations ∧
      (m.internSelfType id n).2.declarationIds = m.declarationIds ∧
      (m.internSelfType id n).2.elements = m.elements := by
  obtain ⟨hd, hids, he⟩ := internAll_frame m ((List.range n).map (.parameter id))
  obtain ⟨hd', hids', he'⟩ :=
    intern_frame (m.internAll ((List.range n).map (.parameter id))).2
      (.declared id (m.internAll ((List.range n).map (.parameter id))).1)
  exact ⟨hd'.trans hd, hids'.trans hids, he'.trans he⟩

/-- The own type may be interned before its declaration is there, if it is going to be. -/
lemma Interned.internSelfType {arity : DeclId → Option ℕ} (h : m.Interned strict arity)
    {id : DeclId} {n : ℕ} (hid : arity id = some n) :
    (m.internSelfType id n).2.Interned strict arity ∧
      (m.internSelfType id n).2.IsSelfType id n (m.internSelfType id n).1 := by
  have hparameters : ∀ term ∈ (List.range n).map (TypeTerm.parameter id),
      ∀ earlier, term.Admissible strict arity earlier := by
    intro term hterm earlier
    obtain ⟨i, hi, rfl⟩ := List.mem_map.mp hterm
    exact ⟨n, hid, List.mem_range.mp hi⟩
  obtain ⟨hinterned, hargs⟩ := h.internAll hparameters
  set args := (m.internAll ((List.range n).map (.parameter id))).1
  set m' := (m.internAll ((List.range n).map (.parameter id))).2
  have hlength : args.length = n := by
    simpa using congrArg List.length hargs
  have hself : (TypeTerm.declared id args).Admissible strict arity m'.types.toList := by
    refine ⟨⟨n, hid, fun _ => Or.inr hlength⟩, fun arg harg => ?_⟩
    have hmem : m'.type? arg ∈ args.map m'.type? := List.mem_map_of_mem harg
    rw [hargs] at hmem
    obtain ⟨term, -, hterm⟩ := List.mem_map.mp hmem
    exact index_lt_of_type? hterm.symm
  exact ⟨hinterned.intern hself, args, type?_intern hinterned _,
    (intern_extends m' _).map_type? hargs⟩

/-! ### A new declaration -/

/-- A declaration as it is registered, with its own type. -/
def registered (name package : String) (kind : DeclKind) (modifiers : Modifiers)
    (parameters : List String) (selfType : TypeId) : Declaration where
  name
  package
  kind
  modifiers
  parameters := parameters.map fun name => { name, bounds := [] }
  superclass := none
  interfaces := []
  selfType

lemma references_registered (name package : String) (kind : DeclKind) (modifiers : Modifiers)
    (parameters : List String) (selfType : TypeId) :
    (registered name package kind modifiers parameters selfType).references = [selfType] := by
  simp [registered, Declaration.references, Declaration.supertypes]

/-- The model with a declaration put behind the others. -/
def pushDeclaration (m : Model) (d : Declaration) : Model :=
  { m with
    declarations := m.declarations.push d
    declarationIds := m.declarationIds.insert d.name ⟨m.declarations.size⟩ }

lemma pushDeclaration_extends (m : Model) (d : Declaration) :
    m.Extends (m.pushDeclaration d) :=
  ⟨List.prefix_rfl, by simp [pushDeclaration], List.prefix_rfl⟩

lemma declaration?_pushDeclaration (m : Model) (d : Declaration) (id : DeclId) :
    (m.pushDeclaration d).declaration? id =
      if id.index = m.declarations.size then some d else m.declaration? id :=
  Array.getElem?_push

/-- The new declaration is known by its name, and the other names are known as before. -/
lemma lookup_pushDeclaration (m : Model) (d : Declaration) (name : String) :
    (m.pushDeclaration d).lookup name =
      if d.name = name then some ⟨m.declarations.size⟩ else m.lookup name := by
  change (m.declarationIds.insert d.name ⟨m.declarations.size⟩)[name]? = _
  rw [Std.TreeMap.getElem?_insert]
  by_cases hname : d.name = name
  · rw [if_pos hname, if_pos (Std.compare_eq_iff_eq.mpr hname)]
  · rw [if_neg hname, if_neg (Std.compare_eq_iff_eq.not.mpr hname)]
    rfl

/-- The table of names stays right when a declaration with a new name is added. -/
lemma Linked.names_pushDeclaration (h : m.Linked strict) {d : Declaration}
    (hnew : m.lookup d.name = none) (name : String) (id : DeclId) :
    (m.pushDeclaration d).lookup name = some id ↔
      ∃ e, (m.pushDeclaration d).declaration? id = some e ∧ e.name = name := by
  rw [lookup_pushDeclaration, declaration?_pushDeclaration]
  by_cases hname : d.name = name
  · rw [if_pos hname]
    constructor
    · rintro ⟨⟩
      exact ⟨d, if_pos rfl, hname⟩
    · rintro ⟨e, he, hename⟩
      split at he
      · next hindex => exact congrArg some (DeclId.eq_of_index_eq hindex.symm)
      · have hknown := (h.names d.name id).mpr ⟨e, he, hename.trans hname.symm⟩
        exact nomatch hnew.symm.trans hknown
  · rw [if_neg hname, h.names]
    constructor
    · rintro ⟨e, he, hename⟩
      exact ⟨e, (if_neg (Nat.ne_of_lt (index_lt_of_declaration? he))).trans he, hename⟩
    · rintro ⟨e, he, hename⟩
      split at he
      · exact absurd (Option.some.inj he ▸ hename) hname
      · exact ⟨e, he, hename⟩

/-- A declaration with a new name whose own type is there and which refers to nothing else fits
into a model. -/
lemma Linked.pushDeclaration (h : m.Linked strict) {d : Declaration}
    (hname : m.lookup d.name = none)
    (hself : m.IsSelfType ⟨m.declarations.size⟩ d.parameters.length d.selfType)
    (hreferences : d.references = [d.selfType]) : (m.pushDeclaration d).Linked strict := by
  have hextends := pushDeclaration_extends m d
  refine ⟨h.names_pushDeclaration hname, fun id e he => ?_, fun id e he t ht => ?_,
    fun field hfield => ?_⟩
  · rw [declaration?_pushDeclaration] at he
    split at he
    · next hindex =>
      obtain rfl := Option.some.inj he
      obtain rfl : id = ⟨m.declarations.size⟩ := DeclId.eq_of_index_eq hindex
      exact hextends.isSelfType hself
    · exact hextends.isSelfType (h.selfTypes id e he)
  · rw [declaration?_pushDeclaration] at he
    split at he
    · obtain rfl := Option.some.inj he
      rw [hreferences, List.mem_singleton] at ht
      obtain ⟨args, hargs, -⟩ := hself
      exact ht ▸ hextends.usable ⟨_, hargs, fun _ => rfl⟩
    · exact hextends.usable (h.references id e he t ht)
  · obtain ⟨htype, e, he⟩ := h.fields field hfield
    obtain ⟨e', he', -⟩ := hextends.declaration? he
    exact ⟨hextends.usable htype, e', he'⟩

/-- Registering a declaration interns its own type and puts the declaration behind the others. -/
lemma insertDeclaration_eq (m : Model) (name package : String) (kind : DeclKind)
    (modifiers : Modifiers) (parameters : List String) :
    m.insertDeclaration name package kind modifiers parameters =
      (⟨m.declarations.size⟩,
        (m.internSelfType ⟨m.declarations.size⟩ parameters.length).2.pushDeclaration
          (registered name package kind modifiers parameters
            (m.internSelfType ⟨m.declarations.size⟩ parameters.length).1)) := by
  have hsize := congrArg Array.size
    (internSelfType_frame m ⟨m.declarations.size⟩ parameters.length).1
  rw [pushDeclaration, hsize]
  rfl

lemma insertDeclaration_extends (m : Model) (name package : String) (kind : DeclKind)
    (modifiers : Modifiers) (parameters : List String) :
    m.Extends (m.insertDeclaration name package kind modifiers parameters).2 := by
  rw [insertDeclaration_eq]
  exact (internSelfType_extends m _ _).trans (pushDeclaration_extends _ _)

/-- A new declaration whose name is new keeps a model coherent. -/
lemma Coherent.insertDeclaration (h : m.Coherent strict) {name : String}
    (hname : m.lookup name = none) (package : String) (kind : DeclKind) (modifiers : Modifiers)
    (parameters : List String) :
    (m.insertDeclaration name package kind modifiers parameters).2.Coherent strict := by
  rw [insertDeclaration_eq]
  set id : DeclId := ⟨m.declarations.size⟩ with hid
  set n := parameters.length with hn
  set m' := (m.internSelfType id n).2 with hm'
  set d := registered name package kind modifiers parameters (m.internSelfType id n).1 with hd
  obtain ⟨hdecls, hnames, helements⟩ := internSelfType_frame m id n
  have hlength : d.parameters.length = n := List.length_map _
  have hdecl : ∀ other, (m'.pushDeclaration d).declaration? other =
      if other.index = m.declarations.size then some d else m.declaration? other := by
    intro other
    rw [declaration?_pushDeclaration, declaration?, declaration?, hdecls]
  have hnew : (m'.pushDeclaration d).arity id = some n := by
    rw [arity, hdecl, if_pos rfl, Option.map_some, hlength]
  -- The old arena, judged by the declarations to come.
  have hinterned : m.Interned strict (m'.pushDeclaration d).arity := by
    refine h.interned.mono fun decl k hk => ?_
    obtain ⟨e, he, rfl⟩ := Option.map_eq_some_iff.mp hk
    rw [arity, hdecl, if_neg (Nat.ne_of_lt (index_lt_of_declaration? he)), he, Option.map_some]
  obtain ⟨hinterned', hself⟩ := hinterned.internSelfType hnew
  have hlinked := h.toLinked.of_extends (internSelfType_extends m id n) hdecls hnames helements
  have hid' : (⟨m'.declarations.size⟩ : DeclId) = id := by rw [hdecls]
  refine ⟨hlinked.pushDeclaration ?_ ?_ (references_registered ..),
    hinterned'.table, hinterned'.admissible⟩
  · exact (congrArg (·[name]?) hnames).trans hname
  · rw [hid', hlength]
    exact hself

end ParcelCompanion.Model
