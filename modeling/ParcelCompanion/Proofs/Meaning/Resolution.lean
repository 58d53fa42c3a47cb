import ParcelCompanion.Proofs.Edit.Resolution
import ParcelCompanion.Proofs.Meaning.Computes

/-!
# Resolution finds what it finds by name

What resolution in a model finds depends on the names of the model only.  It fails exactly when
resolution by name has no answer, and otherwise the type that it answers denotes that answer.
-/

namespace ParcelCompanion

open Model

/-! ### What names find is there -/

namespace Names

variable {names : Names} {context : String} {scope : Scope} {name : String}

/-- The type parameter that a name means is one of those of its owner. -/
lemma exists_scope_of_findParameter {owner : String} {index : ℕ}
    (h : names.findParameter context scope name = some (owner, index)) :
    ∃ declared, names owner = some declared ∧ index < declared.parameters.length := by
  obtain ⟨outer, -, houter⟩ := List.exists_of_findSome?_eq_some h
  obtain ⟨declared, hdeclared, hindex⟩ := Option.bind_eq_some_iff.mp houter
  obtain ⟨i, hi, heq⟩ := Option.bind_eq_some_iff.mp hindex
  obtain ⟨rfl, rfl⟩ := Prod.mk.inj (Option.some.inj heq)
  exact ⟨declared, hdeclared, (List.findIdx?_eq_some_iff_findIdx_eq.mp hi).1⟩

/-- The declaration that a name means is there. -/
lemma isSome_of_findDeclaration {owner : String}
    (h : names.findDeclaration context scope name = some owner) : (names owner).isSome := by
  have hfound := List.find?_some h
  exact hfound

variable (names context scope) in
/-- The type that a name means as that of a declaration. -/
def resolveDeclared (name : String) (args : List WrittenType) : Option TypeTree :=
  match names.findDeclaration context scope name with
  | none => some (.unresolved (WrittenType.named name args).text)
  | some owner => do
    let declared ← names owner
    if !args.isEmpty && args.length != declared.parameters.length then none
    else return .declared owner (← names.resolveAll context scope args)

variable (names context scope) in
/-- A name without arguments may be a word, and every name may be that of a declaration. -/
lemma resolve_named (name : String) (args : List WrittenType) :
    names.resolve context scope (.named name args) =
      (some (if args.isEmpty then names.resolveWord context scope name else none)).bind fun
        | some tree => some tree
        | none => names.resolveDeclared context scope name args := by
  rw [resolve]
  rfl

end Names

/-- A name that the names of a model know is that of one of its declarations. -/
lemma Model.Linked.exists_of_names {strict : Prop} {m : Model} (h : m.Linked strict)
    {name : String} (hname : (m.names name).isSome) :
    ∃ id d, m.lookup name = some id ∧ m.declaration? id = some d ∧ d.name = name ∧
      m.names name = some d.scope := by
  rw [h.isSome_names] at hname
  obtain ⟨id, hid⟩ := Option.isSome_iff_exists.mp hname
  obtain ⟨d, hd⟩ := h.exists_of_lookup hid
  exact ⟨id, d, hid, hd⟩

namespace Edit

variable {m : Model} {context : DeclId} {d : Declaration}

/-! ### Words -/

/-- A type parameter that the names of the model know is found. -/
lemma finds_parameter_of_names (hm : m.Coherent False) {owner : String} {index : ℕ}
    {scope : Scope} (hscope : m.names owner = some scope)
    (hindex : index < scope.parameters.length) :
    ∃ id tree, m.lookup owner = some id ∧ m.names.parameter owner index = some tree ∧
      (Edit.parameter id index).Finds m (some tree) fun id tree m' => m'.Denotes id tree := by
  obtain ⟨id, e, hid, he, rfl, hnames⟩ :=
    hm.exists_of_names (Option.isSome_iff_exists.mpr ⟨scope, hscope⟩)
  obtain rfl := Option.some.inj (hscope.symm.trans hnames)
  -- Only the low bits count, but what they leave is still a position.
  have hlow : index % UInt32.size < e.parameters.length := by
    have hlength : e.scope.parameters.length = e.parameters.length := List.length_map _
    have hmod := Nat.mod_le index UInt32.size
    omega
  have hparameter := List.getElem?_eq_getElem hlow
  refine ⟨id, _, hid, ?_, finds_parameter he hparameter⟩
  simp [Names.parameter, hscope, Declaration.scope, hparameter]

/-- A word is found as such exactly when it is one by name. -/
lemma finds_resolveWord (hd : m.declaration? context = some d) (name : String) :
    (resolveWord context name).Finds m (some (m.names.resolveWord d.name d.scope name))
      fun id? tree? m' => Option.Rel m'.Denotes id? tree? := by
  rw [resolveWord, Names.resolveWord]
  cases Primitive.ofKeyword? name with
  | some kind =>
    exact (finds_primitive kind).map (g := some) fun _ _ _ hid => .some hid
  | none =>
    intro hm
    refine computes_get_bind (computes_liftM_bind (hm.findParameter_eq hd name) ?_)
    cases hfound : m.names.findParameter d.name d.scope name with
    | none => exact finds_pure .none hm
    | some found =>
      obtain ⟨owner, index⟩ := found
      obtain ⟨scope, hscope, hindex⟩ := Names.exists_scope_of_findParameter hfound
      obtain ⟨id, tree, hid, htree, hfinds⟩ := finds_parameter_of_names hm hscope hindex
      simp only [Option.bind_eq_bind, Option.bind_some, hid, Option.map_some, htree]
      exact hfinds.map (g := some) (fun _ _ _ hid => .some hid) hm

/-! ### Written types -/

/-- A name resolves as that of a declaration to what it is by name. -/
lemma finds_resolveDeclared (hd : m.declaration? context = some d) (name : String)
    {args : List WrittenType}
    (hargs : (resolveAll context args).Finds m (m.names.resolveAll d.name d.scope args)
      fun ids trees m' => m'.DenotesAll ids trees) :
    (resolveDeclared context name args).Finds m (m.names.resolveDeclared d.name d.scope name args)
      fun id tree m' => m'.Denotes id tree := by
  intro hm
  rw [resolveDeclared, Names.resolveDeclared]
  refine computes_get_bind (computes_liftM_bind (hm.findDeclaration_eq hd name) ?_)
  cases hfound : m.names.findDeclaration d.name d.scope name with
  | none => exact finds_unresolved _ hm
  | some owner =>
    obtain ⟨id, e, hid, he, rfl, hnames⟩ :=
      hm.exists_of_names (Names.isSome_of_findDeclaration hfound)
    have hlength : e.scope.parameters.length = e.parameters.length := List.length_map _
    simp only [Option.bind_some, hid, hnames, Option.bind_eq_bind, hlength]
    refine computes_get_bind (computes_liftM_bind (declaration_eq_ok_iff.mpr he) ?_)
    split
    · exact computes_throw _
    · refine hargs.bind (fun ids trees m' hadds hids => ?_) hm
      rw [← hadds.declaration?_eq] at he
      exact finds_declared he hids

mutual

/-- A written type resolves to what it is by name. -/
lemma finds_resolve (context : DeclId) (type : WrittenType) {m : Model}
    (hd : m.declaration? context = some d) :
    (resolve context type).Finds m (m.names.resolve d.name d.scope type)
      fun id tree m' => m'.Denotes id tree := by
  match type with
  | .named name args =>
    have hword : (if args.isEmpty then resolveWord context name else pure none).Finds m
        (some (if args.isEmpty then m.names.resolveWord d.name d.scope name else none))
        fun id? tree? m' => Option.Rel m'.Denotes id? tree? := by
      split
      · exact finds_resolveWord hd name
      · exact finds_pure .none
    rw [resolve_named, Names.resolve_named]
    refine hword.bind fun id? tree? m' hadds hid => ?_
    cases hid with
    | some hid => exact finds_pure hid
    | none =>
      rw [← hadds.declaration?_eq] at hd
      rw [← hadds.names_eq]
      exact finds_resolveDeclared hd name (finds_resolveAll context args hd)
  | .array element =>
    rw [resolve, Names.resolve]
    exact (finds_resolve context element hd).bind fun _ _ _ _ hid => finds_array hid
  | .wildcard =>
    rw [resolve, Names.resolve]
    exact finds_wildcard
  | .bounded .upper bound =>
    rw [resolve, Names.resolve]
    exact (finds_resolve context bound hd).bind fun _ _ _ _ hid => finds_upper hid
  | .bounded .lower bound =>
    rw [resolve, Names.resolve]
    exact (finds_resolve context bound hd).bind fun _ _ _ _ hid => finds_lower hid
termination_by structural type

/-- Several written types resolve to what they are by name. -/
lemma finds_resolveAll (context : DeclId) (types : List WrittenType) {m : Model}
    (hd : m.declaration? context = some d) :
    (resolveAll context types).Finds m (m.names.resolveAll d.name d.scope types)
      fun ids trees m' => m'.DenotesAll ids trees := by
  match types with
  | [] =>
    rw [resolveAll, Names.resolveAll]
    exact finds_pure rfl
  | type :: types =>
    rw [resolveAll, Names.resolveAll]
    refine (finds_resolve context type hd).bind fun id tree m' hadds hid => ?_
    rw [← hadds.declaration?_eq] at hd
    rw [← hadds.names_eq]
    refine (finds_resolveAll context types hd).bind fun ids trees m'' hadds' hids => ?_
    exact finds_pure ⟨id, ids, rfl, hid.of_extends hadds'.toExtends, hids⟩
termination_by structural types

end

/-- A text resolves to what it is by name. -/
lemma finds_resolveText {name : String} (hname : m.lookup name = some context) (text : String) :
    (resolveText context text).Finds m (m.names.resolveText name text)
      fun id tree m' => m'.Denotes id tree := by
  intro hm
  obtain ⟨d, hd, rfl, hscope⟩ := hm.exists_of_lookup hname
  rw [resolveText, Names.resolveText, hscope]
  cases WrittenType.parse text with
  | ok type => exact finds_resolve context type hd hm
  | error fault => exact computes_throw _

end Edit

end ParcelCompanion
