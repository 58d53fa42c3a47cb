import ParcelCompanion.Proofs.Companion.Characters
import ParcelCompanion.Proofs.Document.Loading
import ParcelCompanion.Proofs.Document.Unresolved
import ParcelCompanion.Proofs.Model.Subtype

/-!
# Subtypes by name are transitive

The check for subtypes asks for the name of the target, and many types have names.  Where
declarations are named by identifiers with dots between them and type parameters by single
identifiers, the name of a declaration without type parameters is that of no other type: the marks
that arrays, wildcards and type arguments leave in a name are not there, primitive types and type
parameters have no dot, and unresolved types are not spelled like declarations.  So whatever is a
subtype of the name goes up to the declaration itself, and from there on to its supertypes.
-/

namespace ParcelCompanion

open Model

/-! ### Proper names -/

/-- The declarations of a document are named by identifiers with dots between them, and their type
parameters by single identifiers. -/
structure Document.WellNamed (document : Document) : Prop where
  declarations : ∀ entry ∈ document.declarations, IsQualifiedName entry.name
  parameters : ∀ entry ∈ document.declarations, ∀ parameter ∈ entry.parameters,
    IsSimpleName parameter.name

/-- The declarations of a model are named by identifiers with dots between them, and their type
parameters by single identifiers. -/
structure Model.WellNamed (m : Model) : Prop where
  declarations : ∀ id d, m.declaration? id = some d → IsQualifiedName d.name
  parameters : ∀ id d, m.declaration? id = some d → ∀ parameter ∈ d.parameters,
    IsSimpleName parameter.name

/-- Whether a type is spelled with a mark: arrays, wildcards and types with arguments are. -/
def TypeTerm.isMarked : TypeTerm → Bool
  | .declared _ (_ :: _) => true
  | .array _ => true
  | .wildcard _ _ => true
  | _ => false

namespace Model

variable {m : Model}

/-- Platform classes are well named. -/
lemma wellNamed_platform : platform.WellNamed := by
  have hall : ∀ d ∈ platform.declarations.toList,
      IsQualifiedName d.name ∧ ∀ parameter ∈ d.parameters, IsSimpleName parameter.name := by
    decide +kernel
  exact ⟨fun id d hd => (hall d (mem_of_declaration? hd)).1,
    fun id d hd => (hall d (mem_of_declaration? hd)).2⟩

/-- The name of a declaration has none of the marks of other types. -/
lemma WellNamed.no_mark (h : m.WellNamed) {id : DeclId} {d : Declaration}
    (hd : m.declaration? id = some d) {mark : Char} (hmark : isNameChar mark = false) :
    mark ∉ d.name.toList := fun hmem =>
  nomatch hmark.symm.trans ((h.declarations id d hd).isNameText mark hmem)

/-- The names of arrays, wildcards and types with arguments have a mark in them. -/
lemma exists_mark_of_spell {term : TypeTerm} (hterm : term.isMarked = true)
    {tell : TypeId → Except ModelError String} {name : String}
    (h : m.spell tell term = .ok name) : ∃ mark ∈ name.toList, isNameChar mark = false := by
  cases term with
  | declared decl args =>
    cases args with
    | nil => exact nomatch hterm
    | cons arg args =>
      obtain ⟨d, -, h⟩ := bind_eq_ok_iff.mp h
      obtain ⟨names, -, h⟩ := bind_eq_ok_iff.mp h
      obtain rfl := pure_eq_ok_iff.mp h
      exact ⟨'<', by simp, by decide +kernel⟩
  | array element =>
    obtain ⟨element, -, h⟩ := bind_eq_ok_iff.mp h
    obtain rfl := pure_eq_ok_iff.mp h
    exact ⟨'[', by simp, by decide +kernel⟩
  | wildcard upper lower =>
    refine ⟨'?', ?_, by decide +kernel⟩
    rcases upper with _ | upper
    · rcases lower with _ | lower
      · obtain rfl := pure_eq_ok_iff.mp h
        decide +kernel
      · obtain ⟨bound, -, h⟩ := bind_eq_ok_iff.mp h
        obtain rfl := pure_eq_ok_iff.mp h
        simp
    · obtain ⟨bound, -, h⟩ := bind_eq_ok_iff.mp h
      obtain rfl := pure_eq_ok_iff.mp h
      simp
  | _ => exact nomatch hterm

/-- A type that is spelled like a declaration is this declaration, without type arguments. -/
lemma WellNamed.eq_declared (h : m.WellNamed) (hm : m.Coherent True) (hapart : m.Apart)
    {id : TypeId} {decl : DeclId} {d : Declaration} (hd : m.declaration? decl = some d)
    (hname : m.canonicalName id = .ok d.name) : m.type? id = some (.declared decl []) := by
  have hdot := (h.declarations decl d hd).has_dot
  cases hid : m.type? id with
  | none => exact nomatch (canonicalName_of_type?_eq_none hid).symm.trans hname
  | some term =>
    rw [hm.canonicalName_eq hid] at hname
    by_cases hterm : term.isMarked = true
    · obtain ⟨mark, hmem, hmark⟩ := exists_mark_of_spell hterm hname
      exact absurd hmem (h.no_mark hd hmark)
    -- Without a mark, the name has no dot in it or means nothing, unless it is that of a declaration.
    cases term with
    | primitive kind =>
      have hkeyword : '.' ∉ kind.keyword.toList := by cases kind <;> decide +kernel
      rw [pure_eq_ok_iff.mp hname] at hkeyword
      exact absurd hdot hkeyword
    | declared other args =>
      cases args with
      | nil =>
        obtain ⟨e, he, heq⟩ := bind_eq_ok_iff.mp hname
        obtain rfl :=
          hm.name_injective (declaration_eq_ok_iff.mp he) hd (pure_eq_ok_iff.mp heq)
        rfl
      | cons arg args => exact absurd rfl hterm
    | parameter owner index =>
      obtain ⟨parameter, hparameter, heq⟩ := bind_eq_ok_iff.mp hname
      obtain ⟨e, he, hindex⟩ := typeParameter_eq_ok_iff.mp hparameter
      have hsimple := h.parameters owner e he parameter (List.mem_of_getElem? hindex)
      rw [← pure_eq_ok_iff.mp heq] at hdot
      exact absurd hdot hsimple.no_dot
    | unresolved text =>
      obtain rfl : text = d.name := pure_eq_ok_iff.mp hname
      have hunknown := hapart id _ hid (h.no_mark hd (by decide +kernel))
      exact nomatch hunknown.symm.trans ((hm.names d.name decl).mpr ⟨d, hd, rfl⟩)
    | array element => exact absurd rfl hterm
    | wildcard upper lower => exact absurd rfl hterm

/-- The own type of a declaration without type parameters has no type arguments. -/
lemma Linked.type?_selfType {strict : Prop} (h : m.Linked strict) {decl : DeclId} {d : Declaration}
    (hd : m.declaration? decl = some d) (hbare : d.parameters = []) :
    m.type? d.selfType = some (.declared decl []) := by
  obtain ⟨args, hself, hargs⟩ := h.selfTypes decl d hd
  rw [hbare, List.length_nil, List.range_zero, List.map_nil, List.map_nil] at hargs
  rwa [List.map_eq_nil_iff.mp hargs] at hself

/-- A type matches the name of a declaration without type parameters only when it is the own type of
the declaration. -/
lemma WellNamed.eq_selfType (h : m.WellNamed) (hm : m.Coherent True) (hapart : m.Apart)
    {id : TypeId} {decl : DeclId} {d : Declaration} (hd : m.declaration? decl = some d)
    (hbare : d.parameters = []) (hmatch : m.Matches id d.name) : id = d.selfType := by
  rcases hmatch with hname | ⟨_, args, e, -, -, -, heq⟩
  · exact hm.interned.type?_injective (h.eq_declared hm hapart hd hname)
      (hm.type?_selfType hd hbare)
  · refine absurd ?_ (h.no_mark hd (show isNameChar '<' = false by decide +kernel))
    rw [heq]
    simp

end Model

/-! ### Documents -/

namespace Document

variable {document : Document} {m : Model}

/-- The model of a well-named document is well named. -/
lemma WellNamed.build (h : document.WellNamed) (hbuild : document.build = .ok m) :
    m.WellNamed := by
  have hnumbers := numbers_of_build hbuild
  refine ⟨fun id d hd => ?_, fun id d hd parameter hparameter => ?_⟩ <;>
    rcases hnumbers.platform_or_entry hd with hplatform | ⟨entry, hentry, hname⟩
  · exact wellNamed_platform.declarations id d hplatform
  · exact hname ▸ h.declarations entry hentry
  · exact wellNamed_platform.parameters id d hplatform parameter hparameter
  · have hrenders := (renders_of_mem hbuild hentry hd hname).1.parameters
    obtain ⟨source, hsource, hrendered⟩ := exists_mem_of_forall₂ hrenders.flip hparameter
    exact hrendered.name ▸ h.parameters entry hentry source hsource

/-- In the model of a well-named document, what is a subtype of the name of a declaration without
type parameters is a subtype of whatever the own type of this declaration is a subtype of. -/
theorem isSubtype_trans (h : document.build = .ok m) (hnamed : document.WellNamed) {a : TypeId}
    {b : DeclId} {d : Declaration} (hd : m.declaration b = .ok d) (hbare : d.parameters = [])
    {target : String} (hab : m.isSubtype a d.name = true)
    (hbt : m.isSubtype d.selfType target = true) : m.isSubtype a target = true := by
  obtain ⟨hm, hacyclic⟩ := build_coherent h
  have hcheck : ∀ id target, m.isSubtype id target = true ↔
      (∃ term, m.type? id = some term) ∧
        ∃ above, Relation.ReflTransGen m.Supertype id above ∧ m.Matches above target :=
    fun id _ => isSubtypeWithin_iff hm (endsWithin_of_acyclic hacyclic id) le_rfl
  obtain ⟨ha, above, habove, hmatch⟩ := (hcheck a d.name).mp hab
  obtain ⟨-, top, htop, hmatch'⟩ := (hcheck d.selfType target).mp hbt
  obtain rfl := (hnamed.build h).eq_selfType hm (apart_of_build h) (declaration_eq_ok_iff.mp hd)
    hbare hmatch
  exact (hcheck a target).mpr ⟨ha, top, habove.trans htop, hmatch'⟩

/-- Three generations of classes, of which the last has a type parameter. -/
def generations : Document where
  declarations := [
    { name := "app.Child", parameters := [{ name := "T" }], superclass := some "Parent" },
    { name := "app.Parent", superclass := some "Ancestor", interfaces := ["Unknown"] },
    { name := "app.Ancestor" }]

/-- The class `app.Child` is a subtype of `app.Ancestor` because `app.Parent` is. -/
theorem child_isSubtype_ancestor : ∃ m d, generations.build = .ok m ∧ generations.WellNamed ∧
    m.declaration ⟨12⟩ = .ok d ∧ d.parameters = [] ∧ m.isSubtype ⟨12⟩ d.name = true ∧
    m.isSubtype d.selfType "app.Ancestor" = true ∧ m.isSubtype ⟨12⟩ "app.Ancestor" = true := by
  obtain ⟨m, hbuild, hparent⟩ : ∃ m, generations.build = .ok m ∧
      (m.declaration? ⟨12⟩).map (fun d => (d.parameters, m.isSubtype ⟨12⟩ d.name,
        m.isSubtype d.selfType "app.Ancestor")) = some ([], true, true) :=
    exists_ok_of_toOption_map (by decide +kernel)
  obtain ⟨d, hd, hparent⟩ := Option.map_eq_some_iff.mp hparent
  obtain ⟨hbare, hsub⟩ := Prod.mk.inj hparent
  obtain ⟨hchild, hancestor⟩ := Prod.mk.inj hsub
  have hd := declaration_eq_ok_iff.mpr hd
  have hnamed : generations.WellNamed := ⟨by decide +kernel, by decide +kernel⟩
  exact ⟨m, d, hbuild, hnamed, hd, hbare, hchild, hancestor,
    isSubtype_trans hbuild hnamed hd hbare hchild hancestor⟩

end Document

end ParcelCompanion
