import ParcelCompanion.Proofs.Document.Loading
import ParcelCompanion.Proofs.Meaning.Height
import ParcelCompanion.Proofs.Meaning.Spelling

/-!
# The types in a model are written somewhere

Every field of the model of a document, and every bound of a type parameter, has a type that some
text means in the declaration to which it belongs.  Packages are beginnings of the names of the
declarations in them.  So wherever a declaration is named by the characters of names, the canonical
names of the types of its fields and bounds are made of the characters of types.
-/

namespace ParcelCompanion

open Model

namespace Model

variable {m : Model} {context : DeclId} {d : Declaration} {id : TypeId}

/-! ### What is written in a declaration -/

/-- A type is what some text means in the declaration of the given name. -/
def IsWrittenIn (m : Model) (name : String) (id : TypeId) : Prop :=
  ∃ text tree, m.names.Reads name text tree ∧ m.Denotes id tree

/-- Packages are beginnings of names, and the positions of type parameters fit into the 32 bits that
`Edit.parameter` keeps of them. -/
structure Tidy (m : Model) : Prop where
  packages : ∀ id d, m.declaration? id = some d → d.package.toList <+: d.name.toList
  sizes : ∀ id d, m.declaration? id = some d → d.parameters.length ≤ UInt32.size

/-- Resolution in a declaration with a proper name brings in proper names only. -/
lemma Tidy.clean (h : m.Tidy) (hd : m.declaration? context = some d) (hname : IsNameText d.name) :
    m.names.Clean d.name d.scope := by
  refine ⟨hname, hname.of_prefix (h.packages context d hd), fun owner s hs => ?_⟩
  obtain ⟨e, he, rfl⟩ := Option.map_eq_some_iff.mp hs
  obtain ⟨other, -, he⟩ := Option.bind_eq_some_iff.mp he
  rw [Declaration.scope, List.length_map]
  exact h.sizes other e he

/-- A type that is written in a declaration is resolved there from a type with proper names. -/
lemma IsWrittenIn.exists_resolve {strict : Prop} (hm : m.Linked strict)
    (hd : m.declaration? context = some d) (h : m.IsWrittenIn d.name id) :
    ∃ type tree, m.names.resolve d.name d.scope type = some tree ∧ m.Denotes id tree ∧
      ∀ name ∈ type.names, IsNameText name := by
  obtain ⟨text, tree, hreads, hdenotes⟩ := h
  obtain ⟨scope, hscope, hreads⟩ := Option.bind_eq_some_iff.mp hreads
  obtain rfl := Option.some.inj ((hm.names_eq_some hd).symm.trans hscope)
  split at hreads
  · next type htype =>
    exact ⟨type, tree, hreads, hdenotes, fun name hname =>
      isNameText_of_isDotted (WrittenType.isDotted_of_parse htype name hname)⟩
  · exact nomatch hreads

lemma IsWrittenIn.isTypeText (h : m.IsWrittenIn d.name id) (hm : m.Coherent True) (htidy : m.Tidy)
    (hd : m.declaration? context = some d) (hname : IsNameText d.name) {text : String}
    (htext : m.canonicalName id = .ok text) : IsTypeText text := by
  obtain ⟨type, tree, htree, hdenotes, hnames⟩ := h.exists_resolve hm.toLinked hd
  obtain rfl := Except.ok.inj (hdenotes.canonicalName.symm.trans htext)
  exact (htidy.clean hd hname).isTypeText_resolve type hnames htree

/-- A type parameter denotes a type parameter of the name of its owner. -/
lemma Denotes.eq_parameter {tree : TypeTree} (h : m.Denotes id tree) {owner : DeclId} {index : ℕ}
    (hid : m.type? id = some (.parameter owner index)) {e : Declaration}
    (he : m.declaration? owner = some e) : ∃ name, tree = .parameter e.name index name := by
  cases tree with
  | parameter ownerName index' name =>
    obtain ⟨decl, d, -, hid', hd, rfl, -⟩ := h
    obtain ⟨rfl, rfl⟩ := TypeTerm.parameter.inj (Option.some.inj (hid.symm.trans hid'))
    obtain rfl := Option.some.inj (he.symm.trans hd)
    exact ⟨name, rfl⟩
  | declared name args =>
    obtain ⟨_, _, _, hid', -⟩ := h
    exact nomatch hid.symm.trans hid'
  | array element =>
    obtain ⟨_, hid', -⟩ := h
    exact nomatch hid.symm.trans hid'
  | bounded kind bound =>
    cases kind <;> obtain ⟨_, hid', -⟩ := h <;> exact nomatch hid.symm.trans hid'
  | primitive kind => exact nomatch hid.symm.trans h
  | wildcard => exact nomatch hid.symm.trans h
  | unresolved name => exact nomatch hid.symm.trans h

/-- A type parameter that is written in a declaration with a proper name belongs to one with a proper
name. -/
lemma IsWrittenIn.isNameText_owner (h : m.IsWrittenIn d.name id) (hm : m.Coherent True)
    (htidy : m.Tidy) (hd : m.declaration? context = some d) (hname : IsNameText d.name)
    {owner : DeclId} {index : ℕ} (hid : m.type? id = some (.parameter owner index))
    {e : Declaration} (he : m.declaration? owner = some e) : IsNameText e.name := by
  obtain ⟨type, tree, htree, hdenotes, -⟩ := h.exists_resolve hm.toLinked hd
  obtain ⟨name, rfl⟩ := hdenotes.eq_parameter hid he
  have hclean := htidy.clean hd hname
  exact hclean.isNameText_of_mem_scopes (hclean.mem_scopes_of_resolve htree)

/-! ### The platform -/

lemma tidy_platform : platform.Tidy := by
  have hall : ∀ d ∈ platform.declarations.toList,
      d.package.toList <+: d.name.toList ∧ d.parameters.length ≤ UInt32.size := by
    decide +kernel
  exact ⟨fun id d hd => (hall d (mem_of_declaration? hd)).1,
    fun id d hd => (hall d (mem_of_declaration? hd)).2⟩

/-- Platform classes have no type parameters. -/
lemma parameters_platform {id : DeclId} (hd : platform.declaration? id = some d) :
    d.parameters = [] := by
  have hall : ∀ d ∈ platform.declarations.toList, d.parameters = [] := by decide +kernel
  exact hall d (mem_of_declaration? hd)

end Model

/-! ### Documents -/

namespace Document

variable {document : Document} {m : Model} {d : Declaration}

/-- What belongs to the declaration of an entry is written in it. -/
lemma isWrittenIn_of_entry (h : document.build = .ok m) {entry : DeclarationEntry}
    (hentry : entry ∈ document.declarations) {id : DeclId} (hd : m.declaration? id = some d)
    (hname : d.name = entry.name) :
    (∀ field ∈ m.fieldsIn id, m.IsWrittenIn d.name field.type) ∧
      ∀ parameter ∈ d.parameters, ∀ bound ∈ parameter.bounds, m.IsWrittenIn d.name bound := by
  obtain ⟨-, o, hrecords, hshows⟩ := shows_of_mem h hentry hd hname
  have hfields := hrecords.fields
  have hparameters := hrecords.parameters
  rw [← hname] at hfields hparameters
  refine ⟨fun field hfield => ?_, fun parameter hparameter bound hbound => ?_⟩
  · obtain ⟨f, hf, hfield⟩ := exists_mem_of_forall₂ hshows.fields hfield
    obtain ⟨source, -, hsource⟩ := exists_mem_of_forall₂ hfields.flip hf
    exact ⟨source.type, f.type, hsource.type, hfield.type⟩
  · obtain ⟨p, hp, hparameter⟩ := exists_mem_of_forall₂ hshows.parameters hparameter
    obtain ⟨source, -, hsource⟩ := exists_mem_of_forall₂ hparameters.flip hp
    obtain ⟨tree, htree, hdenotes⟩ :=
      exists_mem_of_forall₂ (denotesAll_iff.mp hparameter.bounds) hbound
    obtain ⟨text, -, htext⟩ := exists_mem_of_forall₂ hsource.bounds.flip htree
    exact ⟨text, tree, htext, hdenotes⟩

/-- The type of a field is written in the declaration that encloses the field. -/
lemma isWrittenIn_field (h : document.build = .ok m) {field : Field} (hfield : field ∈ m.elements)
    (hd : m.declaration? field.enclosing = some d) : m.IsWrittenIn d.name field.type := by
  have hnumbers := numbers_of_build h
  have hmem : field ∈ document.ids.flatMap m.fieldsIn :=
    hnumbers.elements ▸ Array.mem_toList_iff.mpr hfield
  obtain ⟨id, hid, hfield⟩ := List.mem_flatMap.mp hmem
  obtain rfl : field.enclosing = id := beq_iff_eq.mp (List.mem_filter.mp hfield).2
  rcases hnumbers.platform_or_entry hd with hplatform | ⟨entry, hentry, hname⟩
  · exact absurd (size_le_of_mem_ids hid) (Nat.not_le_of_lt (index_lt_of_declaration? hplatform))
  · exact (isWrittenIn_of_entry h hentry hd hname).1 field hfield

/-- The bounds of a type parameter are written in the declaration to which it belongs. -/
lemma isWrittenIn_bound (h : document.build = .ok m) {id : DeclId}
    (hd : m.declaration? id = some d) {parameter : TypeParameter}
    (hparameter : parameter ∈ d.parameters) {bound : TypeId} (hbound : bound ∈ parameter.bounds) :
    m.IsWrittenIn d.name bound := by
  rcases (numbers_of_build h).platform_or_entry hd with hplatform | ⟨entry, hentry, hname⟩
  · exact nomatch parameters_platform hplatform ▸ hparameter
  · exact (isWrittenIn_of_entry h hentry hd hname).2 parameter hparameter bound hbound

/-- The model of a document is tidy if the document does not give a declaration more type parameters
than there are positions of 32 bits. -/
lemma tidy_of_build (h : document.build = .ok m)
    (hsizes : ∀ entry ∈ document.declarations, entry.parameters.length ≤ UInt32.size) :
    m.Tidy := by
  have hnumbers := numbers_of_build h
  refine ⟨fun id d hd => ?_, fun id d hd => ?_⟩ <;>
    rcases hnumbers.platform_or_entry hd with hplatform | ⟨entry, hentry, hname⟩
  · exact tidy_platform.packages id d hplatform
  · obtain ⟨hinside, o, hrecords, hshows⟩ := shows_of_mem h hentry hd hname
    rw [hshows.package, hrecords.package, hname]
    exact Header.prefix_of_isInside hinside
  · exact tidy_platform.sizes id d hplatform
  · obtain ⟨-, o, hrecords, hshows⟩ := shows_of_mem h hentry hd hname
    rw [hshows.parameters.length_eq, ← hrecords.parameters.length_eq]
    exact hsizes entry hentry

end Document

end ParcelCompanion
