import ParcelCompanion.Proofs.Document.Numbering
import ParcelCompanion.Proofs.Document.Unresolved
import ParcelCompanion.Proofs.Meaning.Height
import ParcelCompanion.Proofs.Meaning.Reading
import ParcelCompanion.Proofs.Meaning.Respelling

/-!
# Canonical names identify types

In the model of a document whose declarations have names that can be read and are no keywords, a
type that is made of no type parameter is known by its canonical name.  Outside of all declarations
this name is resolved to the type that it belongs to, also when the type is unresolved, because an
unresolved type keeps a text that still means nothing.  Hence no two such types have the same
canonical name.
-/

namespace ParcelCompanion

open Model WrittenType

namespace Model

variable {m : Model} {id : TypeId} {term : TypeTerm}

/-- A type is a component of another one. -/
def IsComponent (m : Model) (id component : TypeId) : Prop :=
  ∃ term, m.type? id = some term ∧ component ∈ term.components

/-- At no depth is the type made of a type parameter. -/
def IsClosed (m : Model) (id : TypeId) : Prop :=
  ∀ part, Relation.ReflTransGen m.IsComponent id part →
    ∀ owner index, m.type? part ≠ some (.parameter owner index)

lemma IsClosed.component (h : m.IsClosed id) (hid : m.type? id = some term) {component : TypeId}
    (hcomponent : component ∈ term.components) : m.IsClosed component :=
  fun part hpart => h part (.head ⟨term, hid, hcomponent⟩ hpart)

/-- A type is closed when it is no type parameter and its components are closed. -/
lemma isClosed_of_components (hid : m.type? id = some term)
    (hterm : ∀ owner index, term ≠ .parameter owner index)
    (hcomponents : ∀ c ∈ term.components, m.IsClosed c) : m.IsClosed id := by
  intro part hpart owner index hparameter
  rcases hpart.cases_head with rfl | ⟨c, ⟨term', hid', hc⟩, hrest⟩
  · exact hterm owner index (Option.some.inj (hid.symm.trans hparameter))
  · obtain rfl := Option.some.inj (hid.symm.trans hid')
    exact hcomponents c hc part hrest owner index hparameter

/-- The names of all declarations can be read, and none is a keyword. -/
structure NamedApart (m : Model) : Prop where
  dotted : ∀ name, (m.names name).isSome → IsDotted name
  keyword : ∀ name, (m.names name).isSome → Primitive.ofKeyword? name = none

/-- Outside of all declarations, the scope is that of the default package. -/
def outside : Scope := ⟨"", []⟩

lemma scopes_outside (names : Names) : names.scopes "" outside = [""] := by
  simp [Names.scopes, Dotted.surrounding, Dotted.fronts]

namespace NamedApart

variable (hnamed : m.NamedApart)

include hnamed

/-- Nothing is declared under a name that cannot be read. -/
lemma names_eq_none {name : String} (hname : ¬ IsDotted name) : m.names name = none := by
  rw [← Option.not_isSome_iff_eq_none]
  exact fun hsome => hname (hnamed.dotted _ hsome)

/-- Outside of all declarations, only keywords are words. -/
lemma resolveWord_eq_none {name : String} (hname : Primitive.ofKeyword? name = none) :
    m.names.resolveWord "" outside name = none := by
  refine Names.resolveWord_eq_none_iff.mpr ⟨Primitive.ofKeyword?_eq_none_iff.mp hname, ?_⟩
  rw [scopes_outside]
  refine List.forall_mem_singleton.mpr fun s hs => ?_
  rw [hnamed.names_eq_none (by decide +kernel)] at hs
  exact nomatch hs

/-- Outside of all declarations, a qualified name means its declaration. -/
lemma findDeclaration_self {owner : String} (howner : (m.names owner).isSome) :
    m.names.findDeclaration "" outside owner = some owner := by
  refine Names.findDeclaration_self ?_ howner
  rw [scopes_outside]
  exact List.forall_mem_singleton.mpr (hnamed.names_eq_none not_isDotted_member_empty)

/-- Outside of all declarations, an unknown text is resolved to itself. -/
lemma respells_unresolved (hm : m.Coherent True) {text : String} (h : m.Unknown text) :
    m.names.Respells "" outside (.unresolved text) := by
  obtain ⟨name, args, rfl, hproper, hkeyword, hname, hlang⟩ := h
  have hnone : ∀ name, m.lookup name = none → m.names name = none := by
    intro name hname
    rw [← Option.isNone_iff_eq_none, ← Option.isSome_eq_false_iff, hm.isSome_names, hname]
    rfl
  refine Names.respells_unresolved hproper (Names.resolve_named_eq_some_iff.mpr (Or.inr ⟨?_, ?_⟩))
  · exact fun hargs => hnamed.resolveWord_eq_none (hkeyword hargs)
  refine Names.resolveDeclared_eq_some_iff.mpr (Or.inl ⟨?_, rfl⟩)
  rw [Names.findDeclaration_eq_none_iff, scopes_outside]
  intro other hother
  have hcases : other = Dotted.member "" name ∨ other = name ∨
      other = Dotted.member "java.lang" name := by
    simpa [Names.readings, outside] using hother
  rcases hcases with heq | heq | heq <;> rw [heq]
  · exact hnamed.names_eq_none not_isDotted_member_empty
  · exact hnone name hname
  · exact hnone _ hlang

/-- A declared type is respelled if its arguments are. -/
lemma exists_respells_declared (hm : m.Coherent True) {decl : DeclId} {args : List TypeId}
    (hid : m.type? id = some (.declared decl args))
    (hargs : ∀ arg ∈ args, ∃ tree, m.Denotes arg tree ∧ m.names.Respells "" outside tree) :
    ∃ tree, m.Denotes id tree ∧ m.names.Respells "" outside tree ∧ tree.isWildcard = false := by
  obtain ⟨d, hd, hcount⟩ := hm.wellFormed.declared id decl args hid
  obtain ⟨trees, htrees⟩ := exists_forall₂ hargs
  have hdenotes : m.DenotesAll args trees := denotesAll_iff.mpr (htrees.imp fun _ _ h => h.1)
  have hrespells : ∀ tree ∈ trees, m.names.Respells "" outside tree := by
    intro tree htree
    obtain ⟨arg, -, harg⟩ := exists_mem_of_forall₂ htrees.flip htree
    exact harg.2
  have hscope := hm.names_eq_some hd
  have hname : (m.names d.name).isSome := Option.isSome_iff_exists.mpr ⟨_, hscope⟩
  have hlength := hdenotes.length_eq
  have hempty : trees = [] ↔ args = [] := by
    rw [← List.length_eq_zero_iff, ← hlength, List.length_eq_zero_iff]
  refine ⟨.declared d.name trees, ⟨decl, d, args, hid, hd, rfl, hdenotes⟩,
    Names.respells_declared (hnamed.dotted _ hname) (fun _ => ?_)
      (hnamed.findDeclaration_self hname) hscope ?_ (Names.respellsAll_of_forall hrespells), rfl⟩
  · exact hnamed.resolveWord_eq_none (hnamed.keyword _ hname)
  · rw [hempty, ← hlength]
    exact hcount.imp_right fun h => h.trans (List.length_map _).symm

/-- Outside of all declarations, the name of a closed type is resolved to the type. -/
lemma exists_respells (hm : m.Coherent True) (hunknown : m.AllTypes m.StaysUnknown)
    (hid : m.type? id = some term) (hclosed : m.IsClosed id) :
    ∃ tree, m.Denotes id tree ∧ m.names.Respells "" outside tree ∧
      tree.isWildcard = term.isWildcard := by
  induction hn : id.index using Nat.strongRecOn generalizing id term with
  | ind n ih =>
    have hcomponents : ∀ c ∈ term.components, ∃ tree, m.Denotes c tree ∧
        m.names.Respells "" outside tree ∧ (m.IsProperType c → tree.isWildcard = false) := by
      intro c hc
      obtain ⟨t, ht⟩ := hm.grounded.type?_component hid hc
      obtain ⟨tree, htree, hrespells, hwildcard⟩ := ih c.index
        (hn ▸ hm.grounded id term hid c hc) ht (hclosed.component hid hc) rfl
      refine ⟨tree, htree, hrespells, fun ⟨t', ht', hproper⟩ => ?_⟩
      obtain rfl := Option.some.inj (ht.symm.trans ht')
      rw [hwildcard]
      cases t with
      | wildcard upper lower => exact absurd rfl (hproper upper lower)
      | _ => rfl
    have hplaced := hm.wellFormed.placement id term hid
    cases term with
    | primitive kind => exact ⟨.primitive kind, hid, Names.respells_primitive kind, rfl⟩
    | unresolved text =>
      exact ⟨.unresolved text, hid, hnamed.respells_unresolved hm (hunknown id _ hid), rfl⟩
    | parameter owner index => exact absurd hid (hclosed id .refl owner index)
    | array element =>
      obtain ⟨tree, htree, hrespells, hwildcard⟩ := hcomponents element List.mem_cons_self
      have helement := hwildcard (hplaced nofun element List.mem_cons_self)
      exact ⟨.array tree, ⟨element, hid, htree⟩, hrespells.array helement, rfl⟩
    | declared decl args => exact hnamed.exists_respells_declared hm hid fun c hc =>
        (hcomponents c hc).imp fun tree h => ⟨h.1, h.2.1⟩
    | wildcard upper lower =>
      have hbound : ∀ c ∈ (TypeTerm.wildcard upper lower).components, m.IsProperType c :=
        hplaced nofun
      rcases upper with _ | upper <;> rcases lower with _ | lower
      · exact ⟨.wildcard, hid, Names.respells_wildcard, rfl⟩
      · obtain ⟨tree, htree, hrespells, hwildcard⟩ := hcomponents lower List.mem_cons_self
        exact ⟨.bounded .lower tree, ⟨lower, hid, htree⟩,
          hrespells.bounded (hwildcard (hbound lower List.mem_cons_self)) .lower, rfl⟩
      · obtain ⟨tree, htree, hrespells, hwildcard⟩ := hcomponents upper List.mem_cons_self
        exact ⟨.bounded .upper tree, ⟨upper, hid, htree⟩,
          hrespells.bounded (hwildcard (hbound upper List.mem_cons_self)) .upper, rfl⟩
      · -- No wildcard is bounded on both sides.
        have hone := hm.wellFormed.oneBound id _ _ hid
        simp at hone

end NamedApart

/-- Closed types of the same name are the same where declarations are named apart. -/
lemma NamedApart.eq_of_canonicalName (hnamed : m.NamedApart) (hm : m.Coherent True)
    (hunknown : m.AllTypes m.StaysUnknown) {a b : TypeId} {term term' : TypeTerm}
    (ha : m.type? a = some term) (hb : m.type? b = some term') (hclosed : m.IsClosed a)
    (hclosed' : m.IsClosed b) (hname : m.canonicalName a = m.canonicalName b) : a = b := by
  obtain ⟨tree, htree, ⟨type, hproper, htext, -, hresolve⟩, -⟩ :=
    hnamed.exists_respells hm hunknown ha hclosed
  obtain ⟨tree', htree', ⟨type', hproper', htext', -, hresolve'⟩, -⟩ :=
    hnamed.exists_respells hm hunknown hb hclosed'
  have hnames : tree.name = tree'.name := by
    rw [htree.canonicalName, htree'.canonicalName] at hname
    exact Except.ok.inj hname
  obtain rfl := eq_of_text_eq hproper hproper' (htext.trans (hnames.trans htext'.symm))
  obtain rfl := Option.some.inj (hresolve.symm.trans hresolve')
  exact htree.eq hm htree'

end Model

namespace Document

variable {document : Document} {m : Model}

/-- The platform classes are named apart, and so is a document whose entries are. -/
lemma namedApart_of_build (h : document.build = .ok m)
    (hentries : ∀ entry ∈ document.declarations,
      IsDotted entry.name ∧ Primitive.ofKeyword? entry.name = none) : m.NamedApart := by
  have hplatform : ∀ d ∈ platform.declarations.toList,
      IsDotted d.name ∧ Primitive.ofKeyword? d.name = none := by decide +kernel
  have hm : m.Coherent True := coherent_of_build h
  have hnames : ∀ name, (m.names name).isSome →
      IsDotted name ∧ Primitive.ofKeyword? name = none := by
    intro name hname
    obtain ⟨id, d, -, hd, rfl, -⟩ := hm.exists_of_names hname
    rcases (numbers_of_build h).platform_or_entry hd with hplatform' | ⟨entry, hentry, heq⟩
    · exact hplatform d (Array.mem_toList_iff.mpr (Array.mem_of_getElem? hplatform'))
    · exact heq ▸ hentries entry hentry
  exact ⟨fun name hname => (hnames name hname).1, fun name hname => (hnames name hname).2⟩

/-- In the model of a document whose declarations have names made of words with dots between them,
none of them a keyword, two types that are made of no type parameter are the same if they have the
same canonical name. -/
theorem eq_of_canonicalName_eq (h : document.build = .ok m)
    (hentries : ∀ entry ∈ document.declarations,
      IsDotted entry.name ∧ Primitive.ofKeyword? entry.name = none)
    {a b : TypeId} {term term' : TypeTerm} (ha : m.type? a = some term)
    (hb : m.type? b = some term') (hclosed : m.IsClosed a) (hclosed' : m.IsClosed b)
    (hname : m.canonicalName a = m.canonicalName b) : a = b :=
  (namedApart_of_build h hentries).eq_of_canonicalName (coherent_of_build h)
    (staysUnknown_of_build h) ha hb hclosed hclosed' hname

/-- A class with two fields whose types are spelled differently. -/
def spellings : Document where
  declarations := [
    { name := "app.Box", parameters := [{ name := "T" }] },
    { name := "app.Pair"
      fields := [{ name := "short", type := "Box<? extends Missing[]>" },
        { name := "long", type := "app.Box<? extends Missing []>" }] }]

/-- The types of the fields `short` and `long` have the same canonical name, and so they are the
same type. -/
theorem spellings_eq_of_canonicalName : ∃ m a b, spellings.build = .ok m ∧
    (∀ entry ∈ spellings.declarations,
      IsDotted entry.name ∧ Primitive.ofKeyword? entry.name = none) ∧
    m.elements.toList.map Field.type = [a, b] ∧ m.IsClosed a ∧ m.IsClosed b ∧
    m.canonicalName a = .ok "app.Box<? extends Missing[]>" ∧
    m.canonicalName a = m.canonicalName b ∧ a = b := by
  obtain ⟨m, hbuild, hm⟩ : ∃ m, spellings.build = .ok m ∧
      (m.elements.toList.map Field.type, m.types.toList.drop 14, m.canonicalName ⟨17⟩) =
        ([⟨17⟩, ⟨17⟩], [.unresolved "Missing", .array ⟨14⟩, .wildcard (some ⟨15⟩) none,
          .declared ⟨11⟩ [⟨16⟩]], .ok "app.Box<? extends Missing[]>") :=
    exists_ok_of_toOption_map (by decide +kernel)
  obtain ⟨hfields, htypes, hname⟩ : _ ∧ _ ∧ _ := by simpa only [Prod.mk.injEq] using hm
  have htype : ∀ i, m.type? ⟨14 + i⟩ = (m.types.toList.drop 14)[i]? := fun i => by
    rw [type?, List.getElem?_drop, Array.getElem?_toList]
  rw [htypes] at htype
  have hentries : ∀ entry ∈ spellings.declarations,
      IsDotted entry.name ∧ Primitive.ofKeyword? entry.name = none := by decide +kernel
  have hclosed : m.IsClosed ⟨17⟩ :=
    isClosed_of_components (htype 3) nofun <| List.forall_mem_singleton.mpr <|
    isClosed_of_components (htype 2) nofun <| List.forall_mem_singleton.mpr <|
    isClosed_of_components (htype 1) nofun <| List.forall_mem_singleton.mpr <|
    isClosed_of_components (htype 0) nofun nofun
  exact ⟨m, _, _, hbuild, hentries, hfields, hclosed, hclosed, hname, rfl,
    eq_of_canonicalName_eq hbuild hentries (htype 3) (htype 3) hclosed hclosed rfl⟩

end Document

end ParcelCompanion
