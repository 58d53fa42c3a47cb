import ParcelCompanion.Proofs.Meaning.Permutation

/-!
# What an outline tells about an entry

After a document has been added to an outline, the outline tells for each entry of the document what
the entry says, in the order in which it says it: `Records`.  The texts of the entry are read by the
names of the whole document, and what the outline told before under other names, it still tells.
-/

namespace ParcelCompanion

/-! ### Recorded entries -/

/-- A text means a tree in a context. -/
def Names.Reads (names : Names) (context text : String) (tree : TypeTree) : Prop :=
  names.resolveText context text = some tree

/-- A type parameter is as its entry says. -/
structure ParameterOutline.Records (names : Names) (context : String) (entry : ParameterEntry)
    (p : ParameterOutline) : Prop where
  name : p.name = entry.name
  bounds : List.Forall₂ (names.Reads context) entry.bounds p.bounds

/-- A field is as its entry says. -/
structure FieldOutline.Records (names : Names) (context : String) (entry : FieldEntry)
    (f : FieldOutline) : Prop where
  name : f.name = entry.name
  type : names.Reads context entry.type f.type
  modifiers : f.modifiers = .ofList entry.modifiers
  annotations : f.annotations = entry.annotations

namespace DeclarationOutline

/-- A declaration is as its entry says. -/
structure Records (names : Names) (entry : DeclarationEntry) (o : DeclarationOutline) : Prop where
  package : o.package = entry.header.packageName
  kind : o.kind = entry.kind
  modifiers : o.modifiers = .ofList entry.modifiers
  parameters : List.Forall₂ (ParameterOutline.Records names entry.name) entry.parameters
    o.parameters
  superclass : Option.Rel (names.Reads entry.name) entry.superclass o.superclass
  interfaces : List.Forall₂ (names.Reads entry.name) entry.interfaces o.interfaces
  fields : List.Forall₂ (FieldOutline.Records names entry.name) entry.fields o.fields

variable {names : Names} {context : String} {o o' : DeclarationOutline}

/-- A recorded declaration contributes to the resolution of names what its header says. -/
lemma Records.scope_eq {entry : DeclarationEntry} (h : o.Records names entry) :
    o.scope = entry.header.outline.scope := by
  have hnames : List.Forall₂ Eq (o.parameters.map ParameterOutline.name)
      (entry.parameters.map ParameterEntry.name) := by
    rw [List.forall₂_map_left_iff, List.forall₂_map_right_iff]
    exact h.parameters.flip.imp fun _ _ => ParameterOutline.Records.name
  rw [List.forall₂_eq_eq_eq] at hnames
  simp [scope, Header.outline, h.package, hnames, DeclarationEntry.header, Function.comp_def]

/-! ### Filling in -/

/-- Bounds are filled in from the first type parameter to the last.  Those that are done stand
before the others, whose bounds are still to come. -/
lemma exists_of_fillBounds {entries : List ParameterEntry} {done : List ParameterOutline}
    (ho : o.parameters = done ++ entries.map fun entry => ⟨entry.name, []⟩)
    (h : (entries.zipIdx done.length).foldlM
      (fun o (entry, index) => o.fillBounds names context entry index) o = some o') :
    ∃ ps, o' = { o with parameters := done ++ ps } ∧
      List.Forall₂ (ParameterOutline.Records names context) entries ps := by
  induction entries generalizing done o with
  | nil =>
    obtain rfl := Option.some.inj h
    exact ⟨[], by rw [← List.map_nil, ← ho], .nil⟩
  | cons entry entries ih =>
    rw [List.zipIdx_cons, List.foldlM_cons] at h
    obtain ⟨next, hnext, hrest⟩ := Option.bind_eq_some_iff.mp h
    obtain ⟨bounds, hbounds, hset⟩ := Option.bind_eq_some_iff.mp hnext
    have hlt : done.length < o.parameters.length := by simp [ho]
    rw [setBounds, if_pos hlt, ho, List.map_cons, modify_length_append_cons] at hset
    obtain rfl := Option.some.inj hset
    set first : ParameterOutline := ⟨entry.name, bounds⟩
    have hdone : (done ++ [first]).length = done.length + 1 := List.length_append
    rw [← hdone] at hrest
    obtain ⟨ps, rfl, hps⟩ := ih (List.append_cons ..) hrest
    refine ⟨first :: ps, ?_, .cons ⟨rfl, mapM_eq_some_iff.mp hbounds⟩ hps⟩
    rw [List.append_assoc, List.singleton_append]

lemma exists_of_fillSuperclass {text? : Option String}
    (h : o.fillSuperclass names context text? = some o') (ho : o.superclass = none) :
    ∃ tree?, o' = { o with superclass := tree? } ∧
      Option.Rel (names.Reads context) text? tree? := by
  cases text? with
  | none =>
    obtain rfl := Option.some.inj h
    exact ⟨none, by rw [← ho], .none⟩
  | some text =>
    obtain ⟨tree, htree, ho'⟩ := Option.bind_eq_some_iff.mp h
    exact ⟨some tree, (Option.some.inj ho').symm, .some htree⟩

/-- Interfaces are filled in behind those that are there. -/
lemma exists_of_fillInterfaces {texts : List String}
    (h : texts.foldlM (fillInterface names context) o = some o') :
    ∃ trees, o' = { o with interfaces := o.interfaces ++ trees } ∧
      List.Forall₂ (names.Reads context) texts trees := by
  induction texts generalizing o with
  | nil =>
    obtain rfl := Option.some.inj h
    exact ⟨[], by rw [List.append_nil], .nil⟩
  | cons text texts ih =>
    rw [List.foldlM_cons] at h
    obtain ⟨next, hnext, hrest⟩ := Option.bind_eq_some_iff.mp h
    obtain ⟨tree, htree, hset⟩ := Option.bind_eq_some_iff.mp hnext
    obtain rfl := Option.some.inj hset
    obtain ⟨trees, rfl, htrees⟩ := ih hrest
    refine ⟨tree :: trees, ?_, .cons htree htrees⟩
    rw [List.append_assoc, List.singleton_append]

/-- Fields are filled in behind those that are there. -/
lemma exists_of_fillFields {entries : List FieldEntry}
    (h : entries.foldlM (fillField names context) o = some o') :
    ∃ fields, o' = { o with fields := o.fields ++ fields } ∧
      List.Forall₂ (FieldOutline.Records names context) entries fields := by
  induction entries generalizing o with
  | nil =>
    obtain rfl := Option.some.inj h
    exact ⟨[], by rw [List.append_nil], .nil⟩
  | cons entry entries ih =>
    rw [List.foldlM_cons] at h
    obtain ⟨next, hnext, hrest⟩ := Option.bind_eq_some_iff.mp h
    obtain ⟨type, htype, hset⟩ := Option.bind_eq_some_iff.mp hnext
    obtain rfl := Option.some.inj hset
    obtain ⟨fields, rfl, hfields⟩ := ih hrest
    set first : FieldOutline := ⟨entry.name, type, .ofList entry.modifiers, entry.annotations⟩
    refine ⟨first :: fields, ?_, .cons ⟨rfl, htype, rfl, rfl⟩ hfields⟩
    rw [List.append_assoc, List.singleton_append]

/-- A declaration is as its entry says once the entry has been filled in. -/
lemma records_of_fill {entry : DeclarationEntry}
    (h : entry.header.outline.fill names entry = some o) : o.Records names entry := by
  obtain ⟨o₁, hbounds, h₁⟩ := Option.bind_eq_some_iff.mp h
  obtain ⟨o₂, hsuper, h₂⟩ := Option.bind_eq_some_iff.mp h₁
  obtain ⟨o₃, hinterfaces, h₃⟩ := Option.bind_eq_some_iff.mp h₂
  have hparameters : entry.header.outline.parameters =
      [] ++ entry.parameters.map fun entry => ⟨entry.name, []⟩ := by
    simp [Header.outline, DeclarationEntry.header, Function.comp_def]
  obtain ⟨ps, rfl, hps⟩ := exists_of_fillBounds hparameters hbounds
  obtain ⟨tree?, rfl, htree⟩ := exists_of_fillSuperclass hsuper rfl
  obtain ⟨trees, rfl, htrees⟩ := exists_of_fillInterfaces hinterfaces
  obtain ⟨fields, rfl, hfields⟩ := exists_of_fillFields h₃
  exact ⟨rfl, rfl, rfl, hps, htree, htrees, hfields⟩

end DeclarationOutline

namespace ModelOutline

variable {outline outline' : ModelOutline} {names : Names} {entries : List DeclarationEntry}

/-! ### Documents -/

/-- A declaration that contributes the same to the resolution of names may take the place of
another. -/
lemma names_set {name : String} {o o' : DeclarationOutline} (ho : outline name = some o)
    (hscope : o'.scope = o.scope) : (outline.set name o').names = outline.names := by
  funext other
  rw [ModelOutline.names, ModelOutline.names]
  by_cases hother : other = name
  · rw [hother, set_self, ho, Option.map_some, Option.map_some, hscope]
  · rw [set_of_ne _ _ hother]

/-- Declaring everything tells the header of each entry, and nothing else that is new. -/
lemma exists_of_declareAll
    (h : entries.foldlM (fun outline entry => outline.declare entry.header) outline =
      some outline') :
    (∀ entry ∈ entries, Header.isInside entry.header.packageName entry.name = true ∧
      outline' entry.name = some entry.header.outline) ∧
      ∀ name, (∀ entry ∈ entries, entry.name ≠ name) → outline' name = outline name := by
  induction entries generalizing outline with
  | nil =>
    obtain rfl := Option.some.inj h
    exact ⟨nofun, fun _ _ => rfl⟩
  | cons entry entries ih =>
    obtain ⟨-, hnames⟩ := names_ne_of_declareAll h
    have hne := (List.pairwise_cons.mp hnames).1
    rw [List.foldlM_cons] at h
    obtain ⟨_, hentry, hrest⟩ := Option.bind_eq_some_iff.mp h
    obtain ⟨-, hinside, rfl⟩ := declare_eq_some_iff.mp hentry
    obtain ⟨hentries, hothers⟩ := ih hrest
    refine ⟨List.forall_mem_cons.mpr ⟨⟨hinside, ?_⟩, hentries⟩, fun name hname => ?_⟩
    · rw [hothers entry.name fun other hother => (hne other hother).symm]
      exact set_self ..
    · obtain ⟨hfirst, hname⟩ := List.forall_mem_cons.mp hname
      rw [hothers name hname]
      exact set_of_ne _ _ hfirst.symm

/-- Completing everything records each entry and touches nothing else. -/
lemma records_of_completeAll (h : entries.foldlM (ModelOutline.complete names) outline =
      some outline')
    (hnames : entries.Pairwise fun a b => a.name ≠ b.name)
    (hentries : ∀ entry ∈ entries, outline entry.name = some entry.header.outline) :
    outline'.names = outline.names ∧
      (∀ entry ∈ entries, ∃ o, outline' entry.name = some o ∧ o.Records names entry) ∧
        ∀ name, (∀ entry ∈ entries, entry.name ≠ name) → outline' name = outline name := by
  induction entries generalizing outline with
  | nil =>
    obtain rfl := Option.some.inj h
    exact ⟨rfl, nofun, fun _ _ => rfl⟩
  | cons entry entries ih =>
    obtain ⟨hne, hnames⟩ := List.pairwise_cons.mp hnames
    obtain ⟨hentry, hentries⟩ := List.forall_mem_cons.mp hentries
    rw [List.foldlM_cons] at h
    obtain ⟨_, hcomplete, hrest⟩ := Option.bind_eq_some_iff.mp h
    obtain ⟨o, o', ho, hfill, rfl⟩ := complete_eq_some_iff.mp hcomplete
    obtain rfl := Option.some.inj (hentry.symm.trans ho)
    have hrecords := DeclarationOutline.records_of_fill hfill
    obtain ⟨hscopes, hrecorded, hothers⟩ := ih hrest hnames fun other hother =>
      (set_of_ne _ _ (hne other hother).symm).trans (hentries other hother)
    refine ⟨hscopes.trans (names_set ho hrecords.scope_eq),
      List.forall_mem_cons.mpr ⟨⟨o', ?_, hrecords⟩, hrecorded⟩, fun name hname => ?_⟩
    · rw [hothers entry.name fun other hother => (hne other hother).symm]
      exact set_self ..
    · obtain ⟨hfirst, hname⟩ := List.forall_mem_cons.mp hname
      rw [hothers name hname]
      exact set_of_ne _ _ hfirst.symm

end ModelOutline

/-- What an outline tells after a document has been added: the entries of the document, which are
new and inside their packages, and under all other names what was told before. -/
structure Document.AddedTo (document : Document) (outline registered : ModelOutline) : Prop where
  new : ∀ entry ∈ document.declarations, outline entry.name = none
  inside : ∀ entry ∈ document.declarations,
    Header.isInside entry.header.packageName entry.name = true
  records : ∀ entry ∈ document.declarations,
    ∃ o, registered entry.name = some o ∧ o.Records registered.names entry
  others : ∀ name, (∀ entry ∈ document.declarations, entry.name ≠ name) →
    registered name = outline name

/-- A document that can be added is added as it is. -/
theorem Document.addedTo_of_register? {document : Document} {outline registered : ModelOutline}
    (h : document.register? outline = some registered) :
    document.AddedTo outline registered := by
  obtain ⟨declared, hdeclare, hcomplete⟩ := Option.bind_eq_some_iff.mp h
  obtain ⟨hnew, hnames⟩ := ModelOutline.names_ne_of_declareAll hdeclare
  obtain ⟨hdeclared, hothers⟩ := ModelOutline.exists_of_declareAll hdeclare
  obtain ⟨hscopes, hrecords, hothers'⟩ := ModelOutline.records_of_completeAll hcomplete hnames
    fun entry hentry => (hdeclared entry hentry).2
  refine ⟨hnew, fun entry hentry => (hdeclared entry hentry).1, fun entry hentry => ?_,
    fun name hname => (hothers' name hname).trans (hothers name hname)⟩
  rw [hscopes]
  exact hrecords entry hentry

end ParcelCompanion
