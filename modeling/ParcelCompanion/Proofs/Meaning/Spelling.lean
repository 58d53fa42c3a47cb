import ParcelCompanion.Proofs.Companion.Characters
import ParcelCompanion.Proofs.Meaning.Names

/-!
# The characters of resolved types

The names in a written type are words with dots between them.  Resolution puts nothing before them
but the names of the scopes, the package of the context and `java.lang`, and both the scopes and the
package are beginnings of the name of the context.  So where this name is made of the characters of
names, the types that are resolved there are made of the characters of types, no matter what else is
declared under which names.
-/

namespace ParcelCompanion

variable {name owner : String}

/-! ### Beginnings of names -/

lemma IsNameText.of_prefix (h : IsNameText name) (hp : owner.toList <+: name.toList) :
    IsNameText owner := fun c hc => h c (hp.subset hc)

lemma isNameText_member (howner : IsNameText owner) (hname : IsNameText name) :
    IsNameText (Dotted.member owner name) := by
  rw [Dotted.member, isNameText_append_iff, isNameText_append_iff]
  exact ⟨⟨howner, by decide +kernel⟩, hname⟩

lemma Dotted.prefix_of_mem_fronts {l front : List Char} (h : front ∈ fronts l) : front <+: l := by
  induction l generalizing front with
  | nil => exact nomatch h
  | cons c l ih =>
    rcases List.mem_append.mp h with h | h
    · obtain ⟨rest, hrest, rfl⟩ := List.mem_map.mp h
      exact List.cons_prefix_cons.mpr ⟨rfl, ih hrest⟩
    · split at h
      · rw [List.mem_singleton.mp h]
        exact List.nil_prefix
      · exact nomatch h

/-- The names around a qualified name are beginnings of it. -/
lemma Dotted.prefix_of_mem_surrounding (h : owner ∈ surrounding name) :
    owner.toList <+: name.toList := by
  obtain ⟨front, hfront, rfl⟩ := List.mem_map.mp h
  rw [String.toList_ofList]
  exact prefix_of_mem_fronts hfront

/-- A package is a beginning of what is inside it. -/
lemma Header.prefix_of_isInside {package : String} (h : isInside package name = true) :
    package.toList <+: name.toList := by
  rcases Bool.or_eq_true_iff.mp h with hempty | hinside
  · rw [String.isEmpty_iff.mp hempty]
    exact List.nil_prefix
  · cases hrest : Dotted.inside? package name with
    | none => exact nomatch hrest ▸ hinside
    | some rest =>
      rw [Dotted.inside?_eq_some_iff.mp hrest, Dotted.toList_member]
      exact List.prefix_append _ _

/-! ### Written types -/

namespace WrittenType

mutual

/-- The text of a written type is made of its names and of marks. -/
lemma isTypeText_text (type : WrittenType) (h : ∀ name ∈ type.names, IsNameText name) :
    IsTypeText type.text := by
  match type with
  | .named name [] => exact (h name List.mem_cons_self).isTypeText
  | .named name (arg :: args) =>
    obtain ⟨hname, hargs⟩ := List.forall_mem_cons.mp h
    rw [text_named_cons]
    exact isTypeText_applied hname.isTypeText (isTypeText_texts (arg :: args) hargs)
  | .array element =>
    rw [text]
    exact isTypeText_array (isTypeText_text element h)
  | .wildcard => decide +kernel
  | .bounded kind bound =>
    rw [text]
    exact isTypeText_bounded kind (isTypeText_text bound h)
termination_by structural type

lemma isTypeText_texts (types : List WrittenType) (h : ∀ name ∈ allNames types, IsNameText name) :
    ∀ text ∈ texts types, IsTypeText text := by
  match types with
  | [] => exact nofun
  | type :: types =>
    rw [allNames, List.forall_mem_append] at h
    exact List.forall_mem_cons.mpr ⟨isTypeText_text type h.1, isTypeText_texts types h.2⟩
termination_by structural types

end

end WrittenType

lemma TypeTree.isTypeText_declared {args : List TypeTree} (hname : IsTypeText name)
    (hargs : ∀ arg ∈ TypeTree.names args, IsTypeText arg) :
    IsTypeText (TypeTree.declared name args).name := by
  rw [TypeTree.name]
  split
  · exact hname
  · exact isTypeText_applied hname hargs

/-! ### Resolution -/

namespace Names

/-- Resolution in a context brings in proper names only: the names of the context and its package are
made of the characters of names, and the positions of type parameters fit into the 32 bits that
`Names.parameter` keeps of them. -/
structure Clean (names : Names) (context : String) (scope : Scope) : Prop where
  context : IsNameText context
  package : IsNameText scope.package
  sizes : ∀ owner s, names owner = some s → s.parameters.length ≤ UInt32.size

variable {names : Names} {context : String} {scope : Scope} {index : ℕ} {tree : TypeTree}

lemma Clean.isNameText_of_mem_scopes (hclean : names.Clean context scope)
    (h : owner ∈ names.scopes context scope) : IsNameText owner := by
  rcases List.mem_cons.mp h with rfl | h
  · exact hclean.context
  · have hsurrounding := (List.takeWhile_prefix _).subset (List.mem_filter.mp h).1
    exact hclean.context.of_prefix (Dotted.prefix_of_mem_surrounding hsurrounding)

/-- A type parameter that is found belongs to a scope and has the name that was sought. -/
lemma exists_of_findParameter (h : names.findParameter context scope name = some (owner, index)) :
    owner ∈ names.scopes context scope ∧
      ∃ s, names owner = some s ∧ s.parameters[index]? = some name := by
  obtain ⟨outer, houter, hfound⟩ := List.exists_of_findSome?_eq_some h
  obtain ⟨s, hs, hfound⟩ := Option.bind_eq_some_iff.mp hfound
  obtain ⟨i, hi, heq⟩ := Option.bind_eq_some_iff.mp hfound
  obtain ⟨rfl, rfl⟩ := Prod.mk.inj (Option.some.inj heq)
  obtain ⟨hlt, hname, -⟩ := List.findIdx?_eq_some_iff_getElem.mp hi
  refine ⟨houter, s, hs, ?_⟩
  rw [List.getElem?_eq_getElem hlt, beq_iff_eq.mp hname]

/-- A word means a primitive type or a type parameter of this name in a scope. -/
lemma Clean.resolveWord_cases (hclean : names.Clean context scope)
    (h : names.resolveWord context scope name = some tree) :
    (∃ kind, tree = .primitive kind) ∨
      ∃ owner ∈ names.scopes context scope, ∃ index, tree = .parameter owner index name := by
  unfold resolveWord at h
  split at h
  · next kind _ => exact Or.inl ⟨kind, (Option.some.inj h).symm⟩
  · obtain ⟨⟨owner, index⟩, hfound, h⟩ := Option.bind_eq_some_iff.mp h
    obtain ⟨howner, s, hs, hname⟩ := exists_of_findParameter hfound
    have hlow : index % UInt32.size = index := Nat.mod_eq_of_lt
      (Nat.lt_of_lt_of_le (List.getElem?_eq_some_iff.mp hname).1 (hclean.sizes owner s hs))
    have h : names.parameter owner index = some tree := h
    unfold parameter at h
    rw [hs, Option.bind_eq_bind, Option.bind_some, hlow, hname] at h
    exact Or.inr ⟨owner, howner, index, (Option.some.inj h).symm⟩

lemma Clean.isNameText_of_findDeclaration (hclean : names.Clean context scope)
    (hname : IsNameText name)
    (h : names.findDeclaration context scope name = some owner) : IsNameText owner := by
  have hmem := List.mem_of_find?_eq_some h
  simp only [candidates, List.mem_append, List.mem_map, List.mem_singleton] at hmem
  rcases hmem with ((⟨outer, houter, rfl⟩ | rfl) | hneighbour) | rfl
  · exact isNameText_member (hclean.isNameText_of_mem_scopes houter) hname
  · exact hname
  · split at hneighbour
    · exact absurd hneighbour List.not_mem_nil
    · rw [List.mem_singleton.mp hneighbour]
      exact isNameText_member hclean.package hname
  · exact isNameText_member (by decide +kernel) hname

lemma Clean.isTypeText_resolveWord (hclean : names.Clean context scope) (hname : IsNameText name)
    (h : names.resolveWord context scope name = some tree) : IsTypeText tree.name := by
  rcases hclean.resolveWord_cases h with ⟨kind, rfl⟩ | ⟨owner, -, index, rfl⟩
  · exact isTypeText_keyword kind
  · exact hname.isTypeText

/-- A name means a word, nothing, or a declaration applied to what its arguments mean. -/
lemma resolve_named_cases {args : List WrittenType}
    (h : names.resolve context scope (.named name args) = some tree) :
    names.resolveWord context scope name = some tree ∨
      tree = .unresolved (WrittenType.named name args).text ∨
        ∃ owner trees, names.findDeclaration context scope name = some owner ∧
          names.resolveAll context scope args = some trees ∧ tree = .declared owner trees := by
  rw [resolve] at h
  split at h
  · next _ hword =>
    obtain rfl := Option.some.inj h
    split at hword
    · exact Or.inl hword
    · cases hword
  · split at h
    · exact Or.inr (Or.inl (Option.some.inj h).symm)
    · next owner howner =>
      obtain ⟨declared, -, h⟩ := Option.bind_eq_some_iff.mp h
      split at h
      · cases h
      · obtain ⟨trees, htrees, h⟩ := Option.bind_eq_some_iff.mp h
        exact Or.inr (Or.inr ⟨owner, trees, howner, htrees, (Option.some.inj h).symm⟩)

mutual

/-- A type is resolved to one that is made of the characters of types. -/
lemma Clean.isTypeText_resolve (hclean : names.Clean context scope) (type : WrittenType)
    (hnames : ∀ name ∈ type.names, IsNameText name) {tree : TypeTree}
    (h : names.resolve context scope type = some tree) :
    IsTypeText tree.name := by
  match type with
  | .named name args =>
    have hname := hnames name List.mem_cons_self
    rcases resolve_named_cases h with hword | rfl | ⟨owner, trees, howner, htrees, rfl⟩
    · exact hclean.isTypeText_resolveWord hname hword
    · exact WrittenType.isTypeText_text _ hnames
    · exact TypeTree.isTypeText_declared
        (hclean.isNameText_of_findDeclaration hname howner).isTypeText
        (hclean.isTypeText_resolveAll args (List.forall_mem_cons.mp hnames).2 htrees)
  | .array element =>
    obtain ⟨elementTree, helement, h⟩ := Option.bind_eq_some_iff.mp h
    obtain rfl := Option.some.inj h
    exact isTypeText_array (hclean.isTypeText_resolve element hnames helement)
  | .wildcard =>
    obtain rfl := Option.some.inj h
    decide +kernel
  | .bounded kind bound =>
    obtain ⟨boundTree, hbound, h⟩ := Option.bind_eq_some_iff.mp h
    obtain rfl := Option.some.inj h
    exact isTypeText_bounded kind (hclean.isTypeText_resolve bound hnames hbound)
termination_by structural type

lemma Clean.isTypeText_resolveAll (hclean : names.Clean context scope) (types : List WrittenType)
    (hnames : ∀ name ∈ WrittenType.allNames types, IsNameText name) {trees : List TypeTree}
    (h : names.resolveAll context scope types = some trees) :
    ∀ text ∈ TypeTree.names trees, IsTypeText text := by
  match types with
  | [] =>
    obtain rfl := Option.some.inj h
    exact nofun
  | type :: types =>
    rw [WrittenType.allNames, List.forall_mem_append] at hnames
    obtain ⟨tree, htree, h⟩ := Option.bind_eq_some_iff.mp h
    obtain ⟨trees, htrees, h⟩ := Option.bind_eq_some_iff.mp h
    obtain rfl := Option.some.inj h
    exact List.forall_mem_cons.mpr ⟨hclean.isTypeText_resolve type hnames.1 htree,
      hclean.isTypeText_resolveAll types hnames.2 htrees⟩
termination_by structural types

end

/-- A type that is resolved to a type parameter is resolved to one of a scope. -/
lemma Clean.mem_scopes_of_resolve (hclean : names.Clean context scope) {type : WrittenType}
    (h : names.resolve context scope type = some (.parameter owner index name)) :
    owner ∈ names.scopes context scope := by
  cases type with
  | named name args =>
    rcases resolve_named_cases h with hword | heq | ⟨_, trees, -, -, heq⟩
    · rcases hclean.resolveWord_cases hword with ⟨kind, heq⟩ | ⟨_, howner, _, heq⟩
      · exact nomatch heq
      · rwa [(TypeTree.parameter.inj heq).1]
    · exact nomatch heq
    · exact nomatch heq
  | array element =>
    obtain ⟨elementTree, -, h⟩ := Option.bind_eq_some_iff.mp h
    exact nomatch h
  | wildcard => exact nomatch h
  | bounded kind bound =>
    obtain ⟨boundTree, -, h⟩ := Option.bind_eq_some_iff.mp h
    exact nomatch h

end Names

end ParcelCompanion
