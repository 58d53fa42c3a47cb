import ParcelCompanion.Proofs.Document.Build
import ParcelCompanion.Proofs.Edit.Completion
import ParcelCompanion.Proofs.Meaning.Outline

/-!
# Numbers follow the order of the document

The declarations of a document are numbered behind the platform classes, one for each entry and in
the order of the entries.  Its fields are numbered entry by entry as well: all fields of a
declaration stand together, behind those of the declarations before it.  The platform classes stay
what they are.
-/

namespace ParcelCompanion

open Edit Model

variable {m m' : Model}

/-! ### Declaring -/

/-- Declaring puts a declaration of the name that is asked for behind the others. -/
lemma Edit.ensures_declare_appends (m : Model) (header : Header) :
    (declare header).Ensures m
      (fun id m' => id = ⟨m.declarations.size⟩ ∧ m'.elements = m.elements ∧
        ∃ d, m'.declarations.toList = m.declarations.toList ++ [d] ∧ d.name = header.name)
      fun _ _ => True := by
  refine ensures_declare (fun _ _ => ?_) fun _ => trivial
  obtain ⟨hdecls, -, helements⟩ :=
    internSelfType_frame m ⟨m.declarations.size⟩ header.parameters.length
  rw [insertDeclaration_eq]
  set d := registered header.name header.packageName header.kind header.modifiers
    header.parameters (m.internSelfType ⟨m.declarations.size⟩ header.parameters.length).1
  refine ⟨rfl, helements, d, ?_, rfl⟩
  rw [pushDeclaration, Array.toList_push, hdecls]

/-- Declaring everything puts one declaration for each entry behind the others, in order. -/
lemma Edit.ensures_declareAll (m : Model) (entries : List DeclarationEntry) :
    (entries.mapM fun entry => declare entry.header).Ensures m
      (fun ids m' =>
        ids = (List.range' m.declarations.size entries.length).map DeclId.mk ∧
          m'.elements = m.elements ∧ ∃ added, m'.declarations.toList =
            m.declarations.toList ++ added ∧
              added.map Declaration.name = entries.map DeclarationEntry.name)
      fun _ _ => True := by
  induction entries generalizing m with
  | nil => exact (ensures_pure _).mpr ⟨rfl, rfl, [], (List.append_nil _).symm, rfl⟩
  | cons entry entries ih =>
    rw [List.mapM_cons, ensures_bind]
    refine (ensures_declare_appends m entry.header).mono ?_ fun _ _ => id
    rintro id m₁ ⟨rfl, helements, d, hdecls, hname⟩
    have hsize : m₁.declarations.size = m.declarations.size + 1 := by
      simpa using congrArg List.length hdecls
    rw [ensures_bind]
    refine (ih m₁).mono ?_ fun _ _ => id
    rintro ids m₂ ⟨rfl, helements', added, hdecls', hnames⟩
    refine (ensures_pure _).mpr ⟨?_, helements'.trans helements, d :: added, ?_, ?_⟩
    · rw [List.length_cons, List.range'_succ, List.map_cons, hsize]
    · rw [hdecls', hdecls, List.append_assoc, List.singleton_append]
    · rw [List.map_cons, List.map_cons, hnames, hname]
      rfl

/-! ### Completing -/

/-- Two models differ at most in what one declaration refers to, in new fields of it, and in what is
no declaration and no field. -/
structure Model.Touches (decl : DeclId) (m m' : Model) : Prop where
  names : m'.declarations.toList.map Declaration.name = m.declarations.toList.map Declaration.name
  others : ∀ id, id ≠ decl → m'.declaration? id = m.declaration? id
  elements : ∃ added, m'.elements.toList = m.elements.toList ++ added ∧
    ∀ field ∈ added, field.enclosing = decl

namespace Model.Touches

variable {m'' : Model} {decl : DeclId}

lemma of_frame (hdecls : m'.declarations = m.declarations) (helements : m'.elements = m.elements) :
    Touches decl m m' := by
  refine ⟨by rw [hdecls], fun id _ => ?_, [], ?_, nofun⟩
  · rw [declaration?, declaration?, hdecls]
  · rw [helements, List.append_nil]

protected lemma trans (h : Touches decl m m') (h' : Touches decl m' m'') :
    Touches decl m m'' := by
  obtain ⟨added, hadded, hall⟩ := h.elements
  obtain ⟨added', hadded', hall'⟩ := h'.elements
  refine ⟨h'.names.trans h.names, fun id hid => (h'.others id hid).trans (h.others id hid),
    added ++ added', ?_, fun field hfield => ?_⟩
  · rw [hadded', hadded, List.append_assoc]
  · exact (List.mem_append.mp hfield).elim (hall field) (hall' field)

/-- Completing a declaration touches this declaration only. -/
lemma follows (decl : DeclId) : Follows (fun _ => True) (Touches decl) decl where
  inherited := WrittenType.inherited_true
  refl m := of_frame rfl rfl
  trans _ _ _ := Touches.trans
  intern m term _ := of_frame (intern_frame m term).1 (intern_frame m term).2.2
  unresolved m _ _ _ _ _ := of_frame (intern_frame m _).1 (intern_frame m _).2.2
  modify m change hname := by
    refine ⟨?_, fun id hid => ?_, [], (List.append_nil _).symm, nofun⟩
    · rw [modifyDeclaration, Array.toList_modify, map_modify_eq_map hname]
    · rw [declaration?, declaration?, modifyDeclaration, Array.getElem?_modify, if_neg]
      exact fun heq => hid (DeclId.eq_of_index_eq heq.symm)
  insert m field henclosing := by
    refine ⟨rfl, fun _ _ => rfl, [field], Array.toList_push, fun other hother => ?_⟩
    exact List.mem_singleton.mp hother ▸ henclosing

end Model.Touches

/-- Completing one declaration after the other adds one block of fields after the other, and touches
no other declaration. -/
lemma Edit.ensures_completeAll (m : Model) (pairs : List (DeclarationEntry × DeclId)) :
    (pairs.forM fun (entry, decl) => entry.complete decl).Ensures m
      (fun _ m' =>
        m'.declarations.toList.map Declaration.name =
          m.declarations.toList.map Declaration.name ∧
        (∀ id, id ∉ pairs.map Prod.snd → m'.declaration? id = m.declaration? id) ∧
        ∃ blocks : List (List Field), m'.elements.toList = m.elements.toList ++ blocks.flatten ∧
          List.Forall₂ (fun decl block => ∀ field ∈ block, Field.enclosing field = decl)
            (pairs.map Prod.snd) blocks)
      fun _ _ => True := by
  induction pairs generalizing m with
  | nil => exact (ensures_pure _).mpr ⟨rfl, fun _ _ => rfl, [], (List.append_nil _).symm, .nil⟩
  | cons pair pairs ih =>
    obtain ⟨entry, decl⟩ := pair
    rw [List.forM_eq_forM, List.forM_cons, ← List.forM_eq_forM, ensures_bind]
    refine Ensures.mono (leads_complete (Touches.follows decl) entry) (fun _ m₁ htouches => ?_)
      fun _ _ _ => trivial
    obtain ⟨block, hblock, hall⟩ := htouches.elements
    refine (ih m₁).mono ?_ fun _ _ => id
    rintro _ m₂ ⟨hnames, hothers, blocks, hblocks, hkeys⟩
    refine ⟨hnames.trans htouches.names, fun id hid => ?_, block :: blocks, ?_, .cons hall hkeys⟩
    · rw [List.map_cons, List.mem_cons, not_or] at hid
      exact (hothers id hid.2).trans (htouches.others id hid.1)
    · rw [hblocks, hblock, List.append_assoc, List.flatten_cons]

/-! ### Documents -/

namespace Document

/-- The numbers of the declarations of a document, in order. -/
def ids (document : Document) : List DeclId :=
  (List.range' platform.declarations.size document.declarations.length).map DeclId.mk

lemma nodup_ids (document : Document) : document.ids.Nodup :=
  (List.nodup_range' 1).map fun _ _ => congrArg DeclId.index

lemma size_le_of_mem_ids {document : Document} {id : DeclId} (h : id ∈ document.ids) :
    platform.declarations.size ≤ id.index := by
  obtain ⟨i, hi, rfl⟩ := List.mem_map.mp h
  exact (List.mem_range'_1.mp hi).1

/-- A model is numbered as the document wants it. -/
structure Numbers (document : Document) (m : Model) : Prop where
  names : m.declarations.toList.map Declaration.name =
    platform.declarations.toList.map Declaration.name ++
      document.declarations.map DeclarationEntry.name
  platform : ∀ id, id.index < platform.declarations.size →
    m.declaration? id = platform.declaration? id
  elements : m.elements.toList = document.ids.flatMap m.fieldsIn

/-- A declaration of the model is a platform class or has the name of an entry. -/
lemma Numbers.platform_or_entry {document : Document} (h : document.Numbers m) {id : DeclId}
    {d : Declaration} (hd : m.declaration? id = some d) :
    Model.platform.declaration? id = some d ∨
      ∃ entry ∈ document.declarations, d.name = entry.name := by
  by_cases hid : id.index < Model.platform.declarations.size
  · exact Or.inl ((h.platform id hid).symm.trans hd)
  · have hname := congrArg (·[id.index]?) h.names
    simp only [List.getElem?_map, Array.getElem?_toList] at hname
    rw [show m.declarations[id.index]? = some d from hd,
      List.getElem?_append_right (by simpa using hid), Option.map_some, List.getElem?_map] at hname
    obtain ⟨entry, hentry, heq⟩ := Option.map_eq_some_iff.mp hname.symm
    exact Or.inr ⟨entry, List.mem_of_getElem? hentry, heq.symm⟩

/-- Registering a document numbers the platform with it. -/
lemma ensures_register (document : Document) :
    document.register.Ensures Model.platform (fun _ m => document.Numbers m) fun _ _ => True := by
  rw [register, ensures_bind]
  refine (ensures_declareAll Model.platform document.declarations).mono ?_ fun _ _ => id
  rintro _ m₁ ⟨rfl, helements, added, hdecls, hnames⟩
  refine (ensures_completeAll m₁ (document.declarations.zip document.ids)).mono ?_ fun _ _ => id
  have hids : (document.declarations.zip document.ids).map Prod.snd = document.ids :=
    List.map_snd_zip (by simp [ids])
  rw [hids]
  rintro _ m ⟨hnames', hothers, blocks, hblocks, hkeys⟩
  have hempty : Model.platform.elements = #[] := by decide +kernel
  refine ⟨?_, fun id hid => ?_, ?_⟩
  · rw [hnames', hdecls, List.map_append, hnames]
  · have hnew : id ∉ document.ids := fun hmem =>
      absurd (size_le_of_mem_ids hmem) (Nat.not_le_of_lt hid)
    rw [hothers id hnew, declaration?, ← Array.getElem?_toList, hdecls,
      List.getElem?_append_left (by simpa using hid), Array.getElem?_toList, declaration?]
  · have hall : m.elements.toList = blocks.flatten := by
      rw [hblocks, helements, hempty, List.nil_append]
    unfold fieldsIn
    rw [hall]
    exact flatten_eq_flatMap_filter document.nodup_ids hkeys

/-- No platform class is left without a superclass but the root class. -/
lemma impliesSuperclass_platform {id : DeclId} {d : Declaration}
    (hd : Model.platform.declaration? id = some d) : impliesSuperclass id d = false := by
  have hall : ∀ p ∈ Model.platform.declarations.toList.zipIdx,
      impliesSuperclass ⟨p.2⟩ p.1 = false := by
    decide +kernel
  refine hall (d, id.index) (List.mem_zipIdx_iff_getElem?.mpr ?_)
  rw [Array.getElem?_toList]
  exact hd

/-- The model of a document is numbered as the document wants it. -/
theorem numbers_of_build {document : Document} (h : document.build = .ok m) :
    document.Numbers m := by
  obtain ⟨registered, hregister, hfinish⟩ := exists_of_build h
  have hensures := document.ensures_register
  unfold Ensures at hensures
  rw [hregister] at hensures
  have hbare := redeclares_of_finish hfinish
  obtain ⟨root, -, rfl⟩ := exists_of_finish hfinish
  refine ⟨?_, fun id hid => ?_, ?_⟩
  · have hnames := congrArg (fun decls => decls.toList.map Declaration.name) hbare.declarations
    simp only [Array.toList_map, List.map_map] at hnames
    exact hnames.trans hensures.names
  · rw [declaration?_withImplicitSuperclasses, hensures.platform id hid]
    refine (Option.map_congr fun d hd => ?_).trans Option.map_id'
    rw [impliesSuperclass_platform hd]
    rfl
  · exact hensures.elements

end Document

end ParcelCompanion
