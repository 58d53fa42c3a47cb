import ParcelCompanion.Proofs.Document.Build
import ParcelCompanion.Proofs.Meaning.Declaring
import ParcelCompanion.Proofs.Meaning.Resolution

/-!
# Completing without numbers

Completing an entry of a document resolves its texts by the names that are declared and fills in
what they mean in the outline.  Nothing but the outline at the name of the entry changes, and
neither do the names, so what a text means does not depend on which entries are complete.
-/

namespace ParcelCompanion

open Model

/-! ### Outlines -/

namespace DeclarationOutline

/-- Replaces the bounds of the type parameter at a position. -/
def setBounds (o : DeclarationOutline) (index : ℕ) (bounds : List TypeTree) :
    Option DeclarationOutline :=
  if index < o.parameters.length then
    some { o with
      parameters := o.parameters.modify index fun parameter => { parameter with bounds } }
  else none

variable (names : Names) (context : String) (o : DeclarationOutline)

/-- Fills in the bounds of the type parameter at a position. -/
def fillBounds (parameter : ParameterEntry) (index : ℕ) : Option DeclarationOutline := do
  let bounds ← parameter.bounds.mapM (names.resolveText context)
  o.setBounds index bounds

/-- Fills in the superclass, if there is a text for it. -/
def fillSuperclass (text? : Option String) : Option DeclarationOutline :=
  match text? with
  | none => some o
  | some text => do
    let tree ← names.resolveText context text
    return { o with superclass := some tree }

/-- Fills in another interface. -/
def fillInterface (text : String) : Option DeclarationOutline := do
  let tree ← names.resolveText context text
  return { o with interfaces := o.interfaces ++ [tree] }

/-- Fills in another field. -/
def fillField (field : FieldEntry) : Option DeclarationOutline := do
  let type ← names.resolveText context field.type
  let f : FieldOutline := {
    name := field.name
    type
    modifiers := .ofList field.modifiers
    annotations := field.annotations }
  return { o with fields := o.fields ++ [f] }

/-- Fills in what an entry says about its declaration. -/
def fill (entry : DeclarationEntry) : Option DeclarationOutline := do
  let o ← entry.parameters.zipIdx.foldlM
    (fun o (parameter, index) => o.fillBounds names entry.name parameter index) o
  let o ← o.fillSuperclass names entry.name entry.superclass
  let o ← entry.interfaces.foldlM (fillInterface names entry.name) o
  entry.fields.foldlM (fillField names entry.name) o

end DeclarationOutline

/-- The outline with an entry completed. -/
def ModelOutline.complete (names : Names) (outline : ModelOutline) (entry : DeclarationEntry) :
    Option ModelOutline := do
  let o ← outline entry.name
  let o ← o.fill names entry
  return outline.set entry.name o

/-- The outline with the declarations of a document added. -/
def Document.register? (document : Document) (outline : ModelOutline) : Option ModelOutline := do
  let declared ← document.declarations.foldlM
    (fun outline entry => outline.declare entry.header) outline
  document.declarations.foldlM (ModelOutline.complete declared.names) declared

/-! ### A declaration that is being completed -/

namespace Model

variable {table : String → Option DeclId} {names : Names} {outline : ModelOutline} {m m' : Model}
  {o o' : DeclarationOutline} {name : String} {id : DeclId}

/-- A model whose declarations are registered realizes an outline. -/
structure Stage (table : String → Option DeclId) (names : Names) (outline : ModelOutline)
    (m : Model) : Prop where
  coherent : m.Coherent False
  lookup : m.lookup = table
  names : m.names = names
  realizes : m.Realizes outline

lemma Stage.of_addsTypes (h : m.Stage table names outline) (hadds : m.AddsTypes m') :
    m'.Stage table names outline :=
  ⟨hadds.coherent, hadds.lookup_eq.trans h.lookup, hadds.names_eq.trans h.names,
    h.realizes.of_addsTypes hadds⟩

/-- A declaration that is being completed is there. -/
lemma Stage.exists_declaration (h : m.Stage table names (outline.set name o))
    (hid : table name = some id) :
    ∃ d, m.declaration? id = some d ∧ m.Shows d (m.fieldsIn id) o := by
  rw [← h.lookup] at hid
  obtain ⟨d, o', hd, ho', hshows⟩ := h.realizes.known name id hid
  rw [ModelOutline.set_self] at ho'
  obtain rfl := Option.some.inj ho'
  exact ⟨d, hd, hshows⟩

/-- A change of the declaration that is being completed changes its outline. -/
lemma Stage.set (h : m.Stage table names (outline.set name o)) (hid : table name = some id)
    (hm' : m'.Coherent False) (hext : m.Extends m') (hids : m'.declarationIds = m.declarationIds)
    {d : Declaration} (hd : m'.declaration? id = some d)
    (hshows : m'.Shows d (m'.fieldsIn id) o')
    (hothers : ∀ other, other ≠ id →
      m'.declaration? other = m.declaration? other ∧ m'.fieldsIn other = m.fieldsIn other) :
    m'.Stage table names (outline.set name o') := by
  have hlookup : m'.lookup = m.lookup := by
    funext other
    rw [Model.lookup, Model.lookup, hids]
  rw [← h.lookup] at hid
  refine ⟨hm', hlookup.trans h.lookup,
    (h.coherent.names_of_extends hext hlookup).trans h.names, ?_⟩
  rw [← ModelOutline.set_set outline o o']
  exact h.realizes.set h.coherent.toLinked hext hlookup hid hd hshows hothers

/-- A change of what the declaration that is being completed refers to changes its outline. -/
lemma Stage.modifyDeclaration (h : m.Stage table names (outline.set name o))
    (hid : table name = some id) {change : Declaration → Declaration}
    (hm' : (m.modifyDeclaration id change).Coherent False)
    (hext : m.Extends (m.modifyDeclaration id change))
    (hshows : ∀ d, m.Shows d (m.fieldsIn id) o → m.Shows (change d) (m.fieldsIn id) o') :
    (m.modifyDeclaration id change).Stage table names (outline.set name o') := by
  obtain ⟨d, hd, hshowsd⟩ := h.exists_declaration hid
  have hdecl : ∀ other, (m.modifyDeclaration id change).declaration? other =
      if id.index = other.index then (m.declaration? other).map change
      else m.declaration? other := by
    intro other
    rw [declaration?, Model.modifyDeclaration, Array.getElem?_modify]
    rfl
  have hd' : (m.modifyDeclaration id change).declaration? id = some (change d) := by
    rw [hdecl, if_pos rfl, hd, Option.map_some]
  refine h.set hid hm' hext rfl hd' ((hshows d hshowsd).of_extends hext) fun other hother => ?_
  have hne : id.index ≠ other.index := fun heq => hother (DeclId.eq_of_index_eq heq.symm)
  exact ⟨(hdecl other).trans (if_neg hne), rfl⟩

end Model

namespace Edit

variable {table : String → Option DeclId} {names : Names} {outline : ModelOutline} {m : Model}
  {o : DeclarationOutline} {name : String} {id : DeclId}

/-- An edit that changes the declaration which is being completed computes its new outline. -/
lemma Computes.modifyDeclaration {edit : Edit Unit} {change : Declaration → Declaration}
    {o' : DeclarationOutline} {r : Unit → Model → Prop}
    (hedit : edit.Computes m (some o') fun _ _ m' => m' = m.modifyDeclaration id change)
    (h : m.Stage table names (outline.set name o)) (hid : table name = some id)
    (hkeeps : edit.Keeps False m r)
    (hshows : ∀ d, m.Shows d (m.fieldsIn id) o → m.Shows (change d) (m.fieldsIn id) o') :
    edit.Computes m (some o') fun _ o' m' => m'.Stage table names (outline.set name o') := by
  refine Ensures.mono (hedit.and_keeps hkeeps h.coherent) ?_ fun _ _ hnone => hnone
  rintro a m' ⟨b, hb, rfl, hm', hext⟩
  obtain rfl := Option.some.inj hb
  exact ⟨o', rfl, h.modifyDeclaration hid hm' hext hshows⟩

/-! ### The steps of completing -/

lemma computes_setSuperclass (h : m.Stage table names (outline.set name o))
    (hid : table name = some id) {t : TypeId} {tree : TypeTree} (ht : m.Denotes t tree) :
    (setSuperclass id t).Computes m (some { o with superclass := some tree })
      fun _ o' m' => m'.Stage table names (outline.set name o') := by
  obtain ⟨term, hterm⟩ := ht.exists_type?
  obtain ⟨d, hd, -⟩ := h.exists_declaration hid
  have hedit : (setSuperclass id t).Computes m (some { o with superclass := some tree })
      fun _ _ m' => m' = m.modifyDeclaration id fun d => { d with superclass := some t } := by
    refine computes_get_bind (computes_liftM_bind (type_eq_ok_iff.mpr hterm) ?_)
    refine computes_liftM_bind (declaration_eq_ok_iff.mpr hd) ?_
    exact (ensures_modify _).mpr ⟨_, rfl, rfl⟩
  refine hedit.modifyDeclaration h hid (keeps_setSuperclass False.elim) fun d hshows => ?_
  exact { hshows with superclass := .some ht }

lemma computes_addInterface (h : m.Stage table names (outline.set name o))
    (hid : table name = some id) {t : TypeId} {tree : TypeTree} (ht : m.Denotes t tree) :
    (addInterface id t).Computes m (some { o with interfaces := o.interfaces ++ [tree] })
      fun _ o' m' => m'.Stage table names (outline.set name o') := by
  obtain ⟨term, hterm⟩ := ht.exists_type?
  obtain ⟨d, hd, -⟩ := h.exists_declaration hid
  have hedit : (addInterface id t).Computes m (some { o with interfaces := o.interfaces ++ [tree] })
      fun _ _ m' => m' = m.modifyDeclaration id fun d =>
        { d with interfaces := d.interfaces ++ [t] } := by
    refine computes_get_bind (computes_liftM_bind (type_eq_ok_iff.mpr hterm) ?_)
    refine computes_liftM_bind (declaration_eq_ok_iff.mpr hd) ?_
    exact (ensures_modify _).mpr ⟨_, rfl, rfl⟩
  refine hedit.modifyDeclaration h hid (keeps_addInterface False.elim) fun d hshows => ?_
  have hold := denotesAll_iff.mp hshows.interfaces
  have hnew : List.Forall₂ m.Denotes [t] [tree] := .cons ht .nil
  exact { hshows with interfaces := denotesAll_iff.mpr (List.rel_append hold hnew) }

/-- Type parameters show what they are said to when the bounds of one are replaced. -/
lemma forall₂_modify_bounds {parameters : List TypeParameter} {ps : List ParameterOutline}
    (h : List.Forall₂ m.ShowsParameter parameters ps) {bounds : List TypeId}
    {trees : List TypeTree} (hbounds : m.DenotesAll bounds trees) (index : ℕ) :
    List.Forall₂ m.ShowsParameter
      (parameters.modify index fun parameter => { parameter with bounds })
      (ps.modify index fun parameter => { parameter with bounds := trees }) := by
  induction h generalizing index with
  | nil => simp
  | cons hp hps ih =>
    cases index with
    | zero => exact .cons ⟨hp.name, hbounds⟩ hps
    | succ index => exact .cons hp (ih index)

lemma computes_setBounds (h : m.Stage table names (outline.set name o))
    (hid : table name = some id) (index : ℕ) {bounds : List TypeId} {trees : List TypeTree}
    (hbounds : m.DenotesAll bounds trees) :
    (setBounds id index bounds).Computes m (o.setBounds index trees)
      fun _ o' m' => m'.Stage table names (outline.set name o') := by
  obtain ⟨d, hd, hshows⟩ := h.exists_declaration hid
  have hthere : ∀ bound ∈ bounds, ∃ term, m.type bound = .ok term := by
    intro bound hbound
    obtain ⟨term, hterm⟩ := hbounds.exists_type? bound hbound
    exact ⟨term, type_eq_ok_iff.mpr hterm⟩
  have hlength := hshows.parameters.length_eq
  by_cases hindex : index < o.parameters.length
  · rw [DeclarationOutline.setBounds, if_pos hindex]
    have hedit : (setBounds id index bounds).Computes m (some { o with
        parameters := o.parameters.modify index fun p => { p with bounds := trees } })
        fun _ _ m' => m' = m.modifyDeclaration id fun d => { d with
          parameters := d.parameters.modify index fun parameter =>
            { parameter with bounds } } := by
      have hparameter := List.getElem?_eq_getElem (hlength ▸ hindex)
      refine computes_get_bind (computes_forM_liftM_bind hthere ?_)
      refine computes_liftM_bind (typeParameter_eq_ok_iff.mpr ⟨d, hd, hparameter⟩) ?_
      exact (ensures_modify _).mpr ⟨_, rfl, rfl⟩
    refine hedit.modifyDeclaration h hid (keeps_setBounds False.elim) fun d hshows => ?_
    exact { hshows with parameters := forall₂_modify_bounds hshows.parameters hbounds index }
  · rw [DeclarationOutline.setBounds, if_neg hindex]
    refine computes_get_bind (computes_forM_liftM_bind hthere ?_)
    have hnone : d.parameters[index]? = none := List.getElem?_eq_none (by omega)
    have hquestion : m.typeParameter id index = .error (.invalidTypeParameter d.name index) := by
      simp only [typeParameter, declaration_eq_ok_iff.mpr hd, bind, Except.bind, hnone]
      rfl
    rw [hquestion]
    exact computes_throw _

/-- A new field of the declaration that is being completed shows up in its outline. -/
lemma computes_addField (h : m.Stage table names (outline.set name o))
    (hid : table name = some id) {field : Field} {f : FieldOutline} (hfield : m.ShowsField field f)
    (henclosing : field.enclosing = id) :
    (addField field).Computes m (some { o with fields := o.fields ++ [f] })
      fun _ o' m' => m'.Stage table names (outline.set name o') := by
  subst henclosing
  obtain ⟨term, hterm⟩ := hfield.type.exists_type?
  obtain ⟨d, hd, hshows⟩ := h.exists_declaration hid
  have hedit : (addField field).Computes m (some { o with fields := o.fields ++ [f] })
      fun _ _ m' => m' = (m.insertElement field).2 := by
    refine computes_get_bind (computes_liftM_bind (declaration_eq_ok_iff.mpr hd) ?_)
    refine computes_liftM_bind (type_eq_ok_iff.mpr hterm) ?_
    exact (ensures_modifyGet _).mpr ⟨_, rfl, rfl⟩
  have hfields : ∀ other, (m.insertElement field).2.fieldsIn other =
      m.fieldsIn other ++ if field.enclosing = other then [field] else [] := by
    intro other
    rw [fieldsIn, fieldsIn, insertElement, Array.toList_push, List.filter_append]
    simp [List.filter_cons]
  refine Ensures.mono (hedit.and_keeps (keeps_addField False.elim) h.coherent) ?_
    fun _ _ hnone => hnone
  rintro a m' ⟨b, hb, rfl, hm', hext⟩
  obtain rfl := Option.some.inj hb
  refine ⟨_, rfl, h.set hid hm' hext rfl hd ?_ fun other hother => ⟨rfl, ?_⟩⟩
  · have hold := hshows.of_extends hext
    have hnew : List.Forall₂ (m.insertElement field).2.ShowsField [field] [f] :=
      .cons (hfield.of_extends hext) .nil
    rw [hfields, if_pos rfl]
    exact { hold with fields := List.rel_append hold.fields hnew }
  · rw [hfields, if_neg (Ne.symm hother), List.append_nil]

/-! ### Entries -/

/-- A type that a text means in the declaration which is being completed may be put to use. -/
lemma computes_resolveText_bind {α β : Type} {outline : ModelOutline}
    (h : m.Stage table names outline) (hid : table name = some id) (text : String)
    {next : TypeId → Edit α} {cont : TypeTree → Option β} {q : α → β → Model → Prop}
    (hnext : ∀ t tree m', m'.Stage table names outline → m'.Denotes t tree →
      (next t).Computes m' (cont tree) q) :
    (resolveText id text >>= next).Computes m ((names.resolveText name text).bind cont) q := by
  rw [← h.lookup] at hid
  rw [← h.names]
  refine (finds_resolveText hid text h.coherent).bind fun t tree m' _ ⟨hadds, ht⟩ => ?_
  exact hnext t tree m' (h.names ▸ h.of_addsTypes hadds) ht

lemma computes_bound (h : m.Stage table names (outline.set name o)) (hid : table name = some id)
    (parameter : ParameterEntry) (index : ℕ) :
    (DeclarationEntry.bound id parameter index).Computes m (o.fillBounds names name parameter index)
      fun _ o' m' => m'.Stage table names (outline.set name o') := by
  have hbounds : (parameter.bounds.mapM (resolveText id)).Finds m
      (parameter.bounds.mapM (names.resolveText name))
      fun ids trees m' => m'.DenotesAll ids trees := by
    rw [← h.lookup] at hid
    refine finds_mapM fun text _ m' hadds => ?_
    rw [← h.names, ← hadds.names_eq]
    rw [← hadds.lookup_eq] at hid
    exact finds_resolveText hid text
  refine (hbounds h.coherent).bind fun ids trees m' _ ⟨hadds, hids⟩ => ?_
  exact computes_setBounds (h.of_addsTypes hadds) hid index hids

lemma computes_addFieldEntry (h : m.Stage table names (outline.set name o))
    (hid : table name = some id) (field : FieldEntry) :
    (DeclarationEntry.addField id field).Computes m (o.fillField names name field)
      fun _ o' m' => m'.Stage table names (outline.set name o') := by
  refine computes_resolveText_bind h hid field.type fun t tree m' h' ht => ?_
  have hfield : m'.ShowsField
      { name := field.name, type := t, enclosing := id, modifiers := .ofList field.modifiers,
        annotations := field.annotations }
      { name := field.name, type := tree, modifiers := .ofList field.modifiers,
        annotations := field.annotations } := ⟨rfl, ht, rfl, rfl⟩
  rw [bind_pure_comp]
  exact (computes_addField h' hid hfield rfl).map fun _ _ _ h'' => h''

lemma computes_fill {entry : DeclarationEntry}
    (h : m.Stage table names (outline.set entry.name o)) (hid : table entry.name = some id) :
    (entry.complete id).Computes m (o.fill names entry)
      fun _ o' m' => m'.Stage table names (outline.set entry.name o') := by
  rw [DeclarationEntry.complete, DeclarationOutline.fill]
  have hbounds : (entry.parameters.zipIdx.forM fun (parameter, index) =>
      DeclarationEntry.bound id parameter index).Computes m
        (entry.parameters.zipIdx.foldlM
          (fun o (parameter, index) =>
            DeclarationOutline.fillBounds names entry.name o parameter index) o)
        fun _ o' m' => m'.Stage table names (outline.set entry.name o') :=
    computes_forM (fun p _ o m h => computes_bound h hid p.1 p.2) h
  refine hbounds.bind fun _ o₁ m₁ _ h₁ => ?_
  have hsuper : (entry.superclass.forM fun text => do
      Edit.setSuperclass id (← Edit.resolveText id text)).Computes m₁
        (o₁.fillSuperclass names entry.name entry.superclass)
        fun _ o' m' => m'.Stage table names (outline.set entry.name o') := by
    unfold DeclarationOutline.fillSuperclass
    cases entry.superclass with
    | none => exact computes_pure h₁
    | some text =>
      exact computes_resolveText_bind h₁ hid text
        fun _ _ _ h' ht => computes_setSuperclass h' hid ht
  refine hsuper.bind fun _ o₂ m₂ _ h₂ => ?_
  have hinterfaces : (entry.interfaces.forM fun text => do
      Edit.addInterface id (← Edit.resolveText id text)).Computes m₂
        (entry.interfaces.foldlM (DeclarationOutline.fillInterface names entry.name) o₂)
        fun _ o' m' => m'.Stage table names (outline.set entry.name o') := by
    refine computes_forM (fun text _ o m h => ?_) h₂
    exact computes_resolveText_bind h hid text fun _ _ _ h' ht => computes_addInterface h' hid ht
  refine hinterfaces.bind fun _ o₃ m₃ _ h₃ => ?_
  exact computes_forM (fun field _ o m h => computes_addFieldEntry h hid field) h₃

/-- Completing an entry completes it in the outline of the model. -/
lemma computes_complete {entry : DeclarationEntry} (h : m.Stage table names outline)
    (hid : table entry.name = some id) :
    (entry.complete id).Computes m (outline.complete names entry)
      fun _ outline' m' => m'.Stage table names outline' := by
  obtain ⟨d, o, -, ho, -⟩ := h.realizes.known entry.name id (h.lookup ▸ hid)
  have hset : outline.set entry.name o = outline := by
    rw [ModelOutline.set, ← ho, Function.update_eq_self]
  rw [ModelOutline.complete, ho]
  rw [← hset] at h
  have hfill := (computes_fill h hid).map_answer fun _ _ _ h' => h'
  rwa [Option.map_eq_bind] at hfill

/-! ### Documents -/

/-- Registering a document adds it to the outline of the model. -/
theorem computes_register {document : Document} (hm : m.Coherent False)
    (h : m.Realizes outline) :
    document.register.Computes m (document.register? outline)
      fun _ outline' m' => m'.Realizes outline' := by
  refine (computes_declareAll hm h document.declarations).bind
    fun ids declared m' _ hdeclared => ?_
  obtain ⟨⟨hm', -⟩, h', hids⟩ := hdeclared
  obtain ⟨hlength, hids⟩ := List.forall₂_iff_zip.mp hids
  have hstage : m'.Stage m'.lookup declared.names declared := ⟨hm', rfl, h'.names_eq, h'⟩
  have hentries : ((document.declarations.zip ids).foldlM
      (fun outline p => outline.complete declared.names p.1) declared) =
        document.declarations.foldlM (ModelOutline.complete declared.names) declared := by
    rw [← List.foldlM_map, List.map_fst_zip hlength.le]
  rw [← hentries]
  refine (computes_forM (fun p hp outline m'' hstage => ?_) hstage).mono
    fun _ outline' m'' hstage => hstage.realizes
  exact computes_complete hstage (hids hp)

end Edit

end ParcelCompanion
