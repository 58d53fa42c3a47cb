import ParcelCompanion.Proofs.Document.Numbering
import ParcelCompanion.Proofs.Document.Order
import ParcelCompanion.Proofs.Meaning.Reading
import ParcelCompanion.Proofs.Text.Dotted

/-!
# The model of a document holds what the document says

Behind the platform classes, which stay as they are, the model of a document has one declaration for
each entry, and its fields are those of the entries, all in the order in which they are written.
`RendersDeclaration` and `RendersField` say what a declaration and a field take over from the
document.  Types are taken over as what their texts resolve to in the finished model, so that what a
text means does not depend on when it was resolved.

What the declarations consist of is known from the outline of the document, and which declaration
is whose from its numbering.
-/

namespace ParcelCompanion

open Model

/-! ### What is taken over -/

/-- A set of modifiers consists of the listed ones. -/
def Modifiers.ConsistsOf (modifiers : Modifiers) (list : List Modifier) : Prop :=
  ∀ modifier, modifiers.contains modifier = true ↔ modifier ∈ list

/-- A package is the one that an entry gives.  If it gives none, the package is what precedes the
last dot of the qualified name, or the default package when there is no dot. -/
def DeclarationEntry.HasPackage (entry : DeclarationEntry) (package : String) : Prop :=
  match entry.package with
  | some given => package = given
  | none => (∃ simple, entry.name = package ++ "." ++ simple ∧ '.' ∉ simple.toList) ∨
      (package = "" ∧ '.' ∉ entry.name.toList)

namespace Model

variable {m : Model} {context : DeclId} {d : Declaration} {entry : DeclarationEntry}

/-- A type parameter is as its entry says. -/
structure RendersParameter (m : Model) (context : DeclId) (entry : ParameterEntry)
    (parameter : TypeParameter) : Prop where
  name : parameter.name = entry.name
  bounds : List.Forall₂ (m.ResolvesText context) entry.bounds parameter.bounds

/-- A superclass is what its text resolves to.  Without a text it is the root class for classes and
enums, and there is none for interfaces and annotations. -/
def RendersSuperclass (m : Model) (context : DeclId) (entry : DeclarationEntry)
    (superclass : Option TypeId) : Prop :=
  match entry.superclass with
  | some text => ∃ id, superclass = some id ∧ m.ResolvesText context text id
  | none =>
    if entry.kind = .classType ∨ entry.kind = .enumType then
      ∃ decl id, m.lookup "java.lang.Object" = some decl ∧ m.selfType decl = .ok id ∧
        superclass = some id
    else superclass = none

/-- The declaration `d` with the number `context` is as its entry says. -/
structure RendersDeclaration (m : Model) (context : DeclId) (entry : DeclarationEntry)
    (d : Declaration) : Prop where
  name : d.name = entry.name
  package : entry.HasPackage d.package
  kind : d.kind = entry.kind
  modifiers : d.modifiers.ConsistsOf entry.modifiers
  parameters : List.Forall₂ (m.RendersParameter context) entry.parameters d.parameters
  superclass : m.RendersSuperclass context entry d.superclass
  interfaces : List.Forall₂ (m.ResolvesText context) entry.interfaces d.interfaces

/-- A field is as its entry says, and belongs to the declaration that its entry stands in. -/
structure RendersField (m : Model) (context : DeclId) (entry : FieldEntry) (field : Field) :
    Prop where
  name : field.name = entry.name
  type : m.ResolvesText context entry.type field.type
  modifiers : field.modifiers.ConsistsOf entry.modifiers
  annotations : field.annotations = entry.annotations
  enclosing : field.enclosing = context

/-- A model consists of the platform classes and of what the entries of a document say. -/
structure Renders (m : Model) (document : Document) : Prop where
  /-- The types of the platform go on to have their numbers. -/
  types : platform.types.toList <+: m.types.toList
  /-- Behind the platform classes there is one declaration for each entry. -/
  declarations : ∃ added, m.declarations.toList = platform.declarations.toList ++ added ∧
    List.Forall₂ (fun (entry, index) d => m.RendersDeclaration ⟨index⟩ entry d)
      (document.declarations.zipIdx platform.declarations.size) added
  /-- There is one field for each of those that the entries list, entry by entry. -/
  elements : List.Forall₂ (fun (entry, context) field => m.RendersField context entry field)
    ((document.declarations.zipIdx platform.declarations.size).flatMap fun (entry, index) =>
      entry.fields.map fun field => (field, (⟨index⟩ : DeclId)))
    m.elements.toList

end Model

/-! ### Modifiers and packages -/

namespace Modifiers

lemma contains_foldl_insert (modifiers : Modifiers) (list : List Modifier) (modifier : Modifier) :
    (list.foldl insert modifiers).contains modifier = true ↔
      modifiers.contains modifier = true ∨ modifier ∈ list := by
  induction list generalizing modifiers with
  | nil => simp
  | cons added list ih =>
    rw [List.foldl_cons, ih, contains_insert, Bool.or_eq_true, decide_eq_true_iff, List.mem_cons]
    tauto

lemma ofList_consistsOf (list : List Modifier) : (ofList list).ConsistsOf list := by
  intro modifier
  have hnone : none.contains modifier = false := by cases modifier <;> rfl
  rw [ofList, contains_foldl_insert, hnone]
  simp

end Modifiers

lemma DeclarationEntry.hasPackage (entry : DeclarationEntry) :
    entry.HasPackage entry.header.packageName := by
  unfold HasPackage Header.packageName
  cases hgiven : entry.package with
  | some given => simp [header, hgiven]
  | none =>
    simp only [header, hgiven, Dotted.outer?]
    cases hsplit : Dotted.splitLast entry.name.toList with
    | none => exact Or.inr ⟨rfl, Dotted.not_mem_of_splitLast hsplit⟩
    | some parts =>
      obtain ⟨hname, hsimple⟩ := Dotted.eq_append_of_splitLast hsplit
      refine Or.inl ⟨String.ofList parts.2, ?_, by rwa [String.toList_ofList]⟩
      rw [← String.toList_inj, hname]
      simp

/-! ### From the outline to the model -/

/-- Implicit superclasses change nothing but the superclass of a declaration. -/
lemma ModelOutline.withImplicitSuperclasses_eq {outline : ModelOutline} {name : String}
    {o : DeclarationOutline} (ho : outline name = some o) (hname : name ≠ objectName) :
    outline.withImplicitSuperclasses name = some { o with
      superclass := if o.superclass = none ∧ (o.kind = .classType ∨ o.kind = .enumType) then
        some (.declared objectName []) else o.superclass } := by
  rw [withImplicitSuperclasses, ho, Option.map_some, Option.some.injEq]
  by_cases hc : o.superclass = none ∧ (o.kind = .classType ∨ o.kind = .enumType)
  · rw [if_pos ⟨hname, hc⟩, if_pos hc]
  · rw [if_neg fun h => hc h.2, if_neg hc]

lemma ModelOutline.names_withImplicitSuperclasses (outline : ModelOutline) :
    outline.withImplicitSuperclasses.names = outline.names := by
  funext name
  rw [ModelOutline.names, ModelOutline.names, withImplicitSuperclasses, Option.map_map]
  refine Option.map_congr fun o _ => ?_
  rw [Function.comp_apply]
  split <;> rfl

namespace Model

variable {m : Model} {context : DeclId} {d : Declaration} {entry : DeclarationEntry}
  {o : DeclarationOutline}

/-- Type parameters that show what their entries say are as their entries say. -/
lemma rendersParameters_of_shows (hm : m.Coherent False) (hd : m.declaration? context = some d)
    {entries : List ParameterEntry} {ps : List ParameterOutline}
    (hrecords : List.Forall₂ (ParameterOutline.Records m.names d.name) entries ps)
    {parameters : List TypeParameter} (hshows : List.Forall₂ m.ShowsParameter parameters ps) :
    List.Forall₂ (m.RendersParameter context) entries parameters := by
  induction hrecords generalizing parameters with
  | nil =>
    obtain rfl := List.forall₂_nil_right_iff.mp hshows
    exact .nil
  | cons hentry _ ih =>
    obtain ⟨parameter, rest, hparameter, hrest, rfl⟩ := List.forall₂_cons_right_iff.mp hshows
    refine .cons ⟨hparameter.name.trans hentry.name, ?_⟩ (ih hrest)
    exact forall₂_resolvesText_of_reads hm hd hentry.bounds (denotesAll_iff.mp hparameter.bounds)

/-- Fields that show what their entries say are as their entries say. -/
lemma rendersFields_of_shows (hm : m.Coherent False) (hd : m.declaration? context = some d)
    {entries : List FieldEntry} {fs : List FieldOutline}
    (hrecords : List.Forall₂ (FieldOutline.Records m.names d.name) entries fs)
    {fields : List Field} (hshows : List.Forall₂ m.ShowsField fields fs)
    (henclosing : ∀ field ∈ fields, field.enclosing = context) :
    List.Forall₂ (m.RendersField context) entries fields := by
  induction hrecords generalizing fields with
  | nil =>
    obtain rfl := List.forall₂_nil_right_iff.mp hshows
    exact .nil
  | cons hentry _ ih =>
    obtain ⟨field, rest, hfield, hrest, rfl⟩ := List.forall₂_cons_right_iff.mp hshows
    obtain ⟨hfirst, hothers⟩ := List.forall_mem_cons.mp henclosing
    refine .cons ⟨hfield.name.trans hentry.name, ?_, ?_,
      hfield.annotations.trans hentry.annotations, hfirst⟩ (ih hrest hothers)
    · exact resolvesText_of_reads hm hd hentry.type hfield.type
    · rw [hfield.modifiers, hentry.modifiers]
      exact Modifiers.ofList_consistsOf _

/-- A superclass that shows what its entry says, or the root class in its place, is as the entry
says. -/
lemma rendersSuperclass_of_shows (hm : m.Coherent False) (hplatform : platform.Extends m)
    (hd : m.declaration? context = some d) {tree? : Option TypeTree}
    (hrecords : Option.Rel (m.names.Reads d.name) entry.superclass tree?)
    (hshows : Option.Rel m.Denotes d.superclass
      (if tree? = none ∧ (entry.kind = .classType ∨ entry.kind = .enumType) then
        some (.declared objectName []) else tree?)) :
    m.RendersSuperclass context entry d.superclass := by
  unfold RendersSuperclass
  generalize entry.superclass = text? at hrecords
  rcases hrecords with @⟨text, tree, htext⟩ | _
  · rw [if_neg fun h => nomatch h.1] at hshows
    obtain ⟨id, hsuper, hid⟩ := exists_of_rel_some hshows
    exact ⟨id, hsuper, resolvesText_of_reads hm hd htext hid⟩
  · by_cases hkind : entry.kind = .classType ∨ entry.kind = .enumType
    · rw [if_pos ⟨rfl, hkind⟩] at hshows
      obtain ⟨id, hsuper, hid⟩ := exists_of_rel_some hshows
      obtain ⟨root, hroot, hdenotes⟩ := hm.denotes_root hplatform
      obtain ⟨-, -, hobject, -⟩ := hm.root hplatform
      rw [if_pos hkind]
      refine ⟨object, id, hobject, ?_, hsuper⟩
      rw [selfType, declaration_eq_ok_iff.mpr hroot, hid.eq hm hdenotes]
      rfl
    · rw [if_neg fun h => hkind h.2] at hshows
      rw [if_neg hkind]
      exact (eq_none_iff_of_rel hshows).mpr rfl

end Model

namespace Document

variable {document : Document} {m : Model}

/-- The declaration of an entry shows what the entry records, but for an implicit superclass, and is
inside its package. -/
lemma shows_of_mem (h : document.build = .ok m) {entry : DeclarationEntry}
    (hentry : entry ∈ document.declarations) {id : DeclId} {d : Declaration}
    (hd : m.declaration? id = some d) (hname : d.name = entry.name) :
    Header.isInside entry.header.packageName entry.name = true ∧
      ∃ o : DeclarationOutline, o.Records m.names entry ∧ m.Shows d (m.fieldsIn id) { o with
        superclass := if o.superclass = none ∧ (o.kind = .classType ∨ o.kind = .enumType) then
          some (.declared objectName []) else o.superclass } := by
  obtain ⟨outline, houtline⟩ := (coherent_platform : platform.Coherent True).exists_realizes
  obtain ⟨registered, hregistered, hpresents⟩ := presents_of_build houtline h
  have hadded := addedTo_of_register? hregistered
  have hnames : m.names = registered.names := by
    rw [hpresents.realizes.names_eq, ModelOutline.names_withImplicitSuperclasses]
  have hobject : entry.name ≠ objectName := by
    intro heq
    have hplatform : platform.lookup objectName = some object := by decide +kernel
    obtain ⟨_, o, -, ho, -⟩ := houtline.known objectName object hplatform
    exact nomatch (heq ▸ hadded.new entry hentry).symm.trans ho
  obtain ⟨o, ho, hrecords⟩ := hadded.records entry hentry
  obtain ⟨o', ho', hshows⟩ :=
    hpresents.realizes.exists_of_declaration hpresents.coherent.toLinked hd
  rw [hname, ModelOutline.withImplicitSuperclasses_eq ho hobject] at ho'
  obtain rfl := Option.some.inj ho'
  exact ⟨hadded.inside entry hentry, o, hnames ▸ hrecords, hshows⟩

/-- The declaration and the fields of an entry are as the entry says. -/
lemma renders_of_mem (h : document.build = .ok m) {entry : DeclarationEntry}
    (hentry : entry ∈ document.declarations) {id : DeclId} {d : Declaration}
    (hd : m.declaration? id = some d) (hname : d.name = entry.name) :
    m.RendersDeclaration id entry d ∧
      List.Forall₂ (m.RendersField id) entry.fields (m.fieldsIn id) := by
  have hm : m.Coherent False := coherent_of_build h
  obtain ⟨-, o, ⟨hpackage, hkind, hmodifiers, hparameters, hsuper, hinterfaces, hfields⟩, hshows⟩ :=
    shows_of_mem h hentry hd hname
  rw [← hname] at hparameters hsuper hinterfaces hfields
  have hshowsSuper := hshows.superclass
  simp only [hkind] at hshowsSuper
  refine ⟨⟨hname, ?_, hshows.kind.trans hkind, ?_,
    rendersParameters_of_shows hm hd hparameters hshows.parameters,
    rendersSuperclass_of_shows hm (extends_of_build h) hd hsuper hshowsSuper,
    forall₂_resolvesText_of_reads hm hd hinterfaces (denotesAll_iff.mp hshows.interfaces)⟩,
    rendersFields_of_shows hm hd hfields hshows.fields fun field hfield => ?_⟩
  · rw [hshows.package, hpackage]
    exact entry.hasPackage
  · rw [hshows.modifiers, hmodifiers]
    exact Modifiers.ofList_consistsOf _
  · exact beq_iff_eq.mp (List.mem_filter.mp hfield).2

/-- The declaration of an entry has the index of the entry, counted behind the platform classes, for
its number. -/
lemma Numbers.exists_declaration (h : document.Numbers m) {p : DeclarationEntry × ℕ}
    (hp : p ∈ document.declarations.zipIdx Model.platform.declarations.size) :
    ∃ d, m.declaration? ⟨p.2⟩ = some d ∧ d.name = p.1.name := by
  obtain ⟨hle, hentry⟩ := List.mk_mem_zipIdx_iff_le_and_getElem?_sub.mp hp
  have hname := congrArg (·[p.2]?) h.names
  simp only [List.getElem?_map, Array.getElem?_toList] at hname
  rw [List.getElem?_append_right (by simpa using hle), List.length_map, Array.length_toList,
    List.getElem?_map, hentry, Option.map_some] at hname
  exact Option.map_eq_some_iff.mp hname

/-- The model of a document holds the eleven platform classes as they are, and then what the
document says: one declaration for each entry and one field for each that an entry lists, all in the
order of the document. -/
theorem build_renders (h : document.build = .ok m) :
    platform.declarations.size = 11 ∧ m.Renders document := by
  have hnumbers := numbers_of_build h
  refine ⟨by decide +kernel, (extends_of_build h).types, ?_, ?_⟩
  · have hprefix : platform.declarations.toList <+: m.declarations.toList := by
      refine List.prefix_iff_getElem?.mpr fun i hi => ?_
      have hdecl := hnumbers.platform ⟨i⟩ (by simpa using hi)
      rw [declaration?, declaration?, ← Array.getElem?_toList, ← Array.getElem?_toList] at hdecl
      rw [hdecl, List.getElem?_eq_getElem hi]
    obtain ⟨added, hadded⟩ := hprefix
    have hnames := hnumbers.names
    rw [← hadded, List.map_append, List.append_cancel_left_eq] at hnames
    have hlength : added.length = document.declarations.length := by
      simpa using congrArg List.length hnames
    refine ⟨added, hadded.symm, List.forall₂_iff_get.mpr ⟨by simp [hlength], fun i hi hi' => ?_⟩⟩
    have hp := List.getElem_mem hi
    obtain ⟨d, hd, hname⟩ := hnumbers.exists_declaration hp
    have hi : i < document.declarations.length := hlength ▸ hi'
    rw [List.getElem_zipIdx] at hd hname
    have hget : added[i] = d := by
      rw [declaration?, ← Array.getElem?_toList, ← hadded,
        List.getElem?_append_right (by simp)] at hd
      simpa [hi'] using hd
    rw [List.get_eq_getElem, List.get_eq_getElem, List.getElem_zipIdx, hget]
    exact (renders_of_mem h (List.getElem_mem hi) hd hname).1
  · have hids : document.ids =
        (document.declarations.zipIdx platform.declarations.size).map fun p => ⟨p.2⟩ := by
      rw [ids, ← List.zipIdx_map_snd, List.map_map]
      rfl
    rw [hnumbers.elements, hids, List.flatMap_map]
    refine forall₂_flatMap fun p hp => List.forall₂_map_left_iff.mpr ?_
    obtain ⟨d, hd, hname⟩ := hnumbers.exists_declaration hp
    exact (renders_of_mem h (List.fst_mem_of_mem_zipIdx hp) hd hname).2

/-- A generic class with two bounds and two fields, which refers to an interface that comes later and
has a field as well. -/
def shelves : Document where
  declarations := [
    { name := "app.Shelf"
      modifiers := [.publicAccess, .final, .publicAccess]
      parameters := [{ name := "T", bounds := ["Item", "Comparable<T>"] }]
      fields := [
        { name := "first", type := "T" },
        { name := "rest", type := "Shelf<T>[]", modifiers := [.privateAccess],
          annotations := ["app.Marked"] }] },
    { name := "app.Item"
      kind := .interfaceType
      interfaces := ["java.io.Closeable"]
      fields := [{ name := "label", type := "String" }] }]

/-- The model of `shelves` has the two fields of `app.Shelf` and then the one of `app.Item`, and
everything in it is as the document says. -/
theorem shelves_rendered : ∃ m, shelves.build = .ok m ∧
    m.elements.toList.map (fun field => (field.name, field.enclosing.index)) =
      [("first", 11), ("rest", 11), ("label", 12)] ∧
    platform.declarations.size = 11 ∧ m.Renders shelves := by
  obtain ⟨m, hbuild, hfields⟩ : ∃ m, shelves.build = .ok m ∧
      m.elements.toList.map (fun field => (field.name, field.enclosing.index)) =
        [("first", 11), ("rest", 11), ("label", 12)] :=
    exists_ok_of_toOption_map (by decide +kernel)
  exact ⟨m, hbuild, hfields, build_renders hbuild⟩

end Document

end ParcelCompanion
