import ParcelCompanion.Document.Build
import ParcelCompanion.Proofs.Meaning.Outline

/-!
# Declaring without numbers

Registering the declarations of a document adds them to the outline of a model one by one.  It fails
exactly when one of them has a name that is known by then, or a name that is not inside its package.
-/

namespace ParcelCompanion

open Model

/-! ### Outlines -/

/-- What a header declares. -/
def Header.outline (header : Header) : DeclarationOutline where
  package := header.packageName
  kind := header.kind
  modifiers := header.modifiers
  parameters := header.parameters.map fun name => { name, bounds := [] }
  superclass := none
  interfaces := []
  fields := []

/-- The outline with a declaration added, whose name must be new and inside its package. -/
def ModelOutline.declare (outline : ModelOutline) (header : Header) : Option ModelOutline :=
  if (outline header.name).isSome then none
  else if !Header.isInside header.packageName header.name then none
  else some (outline.set header.name header.outline)

/-! ### Models -/

namespace Model

variable {m : Model} {outline : ModelOutline}

/-- A declaration as it is registered shows what its header declares. -/
lemma shows_registered (m : Model) (header : Header) (selfType : TypeId) :
    m.Shows (registered header.name header.packageName header.kind header.modifiers
      header.parameters selfType) [] header.outline where
  package := rfl
  kind := rfl
  modifiers := rfl
  parameters := by
    simp only [registered, Header.outline, List.forall₂_map_left_iff,
      List.forall₂_map_right_iff, List.forall₂_same]
    exact fun name _ => ⟨rfl, rfl⟩
  superclass := .none
  interfaces := rfl
  fields := .nil

/-- A declaration that is not there has no fields. -/
lemma Linked.fieldsIn_eq_nil {strict : Prop} (hm : m.Linked strict) {id : DeclId}
    (hid : m.declaration? id = none) : m.fieldsIn id = [] := by
  refine List.filter_eq_nil_iff.mpr fun field hfield henclosing => ?_
  obtain ⟨-, d, hd⟩ := hm.fields field (Array.mem_toList_iff.mp hfield)
  rw [beq_iff_eq.mp henclosing, hid] at hd
  exact nomatch hd

/-- A new declaration shows up in the outline at its name. -/
lemma Realizes.insertDeclaration (h : m.Realizes outline) (hm : m.Coherent False)
    (header : Header) :
    (m.insertDeclaration header.name header.packageName header.kind header.modifiers
      header.parameters).2.Realizes (outline.set header.name header.outline) := by
  have hext := insertDeclaration_extends m header.name header.packageName header.kind
    header.modifiers header.parameters
  rw [insertDeclaration_eq] at hext ⊢
  set id : DeclId := ⟨m.declarations.size⟩ with hid
  set m' := (m.internSelfType id header.parameters.length).2
  set d := registered header.name header.packageName header.kind header.modifiers
    header.parameters (m.internSelfType id header.parameters.length).1
  obtain ⟨hdecls, hids, helements⟩ := internSelfType_frame m id header.parameters.length
  have hlookup : ∀ name, (m'.pushDeclaration d).lookup name =
      if header.name = name then some id else m.lookup name := by
    intro name
    rw [lookup_pushDeclaration, hdecls, lookup, hids]
    rfl
  have hdecl : ∀ other, (m'.pushDeclaration d).declaration? other =
      if other.index = m.declarations.size then some d else m.declaration? other := by
    intro other
    rw [declaration?_pushDeclaration, hdecls, declaration?, hdecls]
    rfl
  have hfields : (m'.pushDeclaration d).fieldsIn = m.fieldsIn := by
    funext other
    exact congrArg (fun elements => elements.toList.filter fun field => field.enclosing == other)
      helements
  refine ⟨fun name hname => ?_, fun name id' hid' => ?_⟩
  · rw [hlookup] at hname
    split at hname
    · exact absurd hname (Option.some_ne_none id)
    · next hne => exact (ModelOutline.set_of_ne _ _ (Ne.symm hne)).trans (h.unknown name hname)
  · rw [hlookup] at hid'
    rw [hfields, hdecl]
    split at hid'
    · next heq =>
      subst heq
      obtain rfl := Option.some.inj hid'
      have hnone : m.declaration? id = none := Array.getElem?_eq_none (Nat.le_refl _)
      rw [hm.fieldsIn_eq_nil hnone, if_pos rfl]
      exact ⟨d, header.outline, rfl, ModelOutline.set_self .., shows_registered _ header _⟩
    · next hne =>
      obtain ⟨e, o, he, ho, hshows⟩ := h.known name id' hid'
      rw [if_neg (Nat.ne_of_lt (index_lt_of_declaration? he))]
      exact ⟨e, o, he, (ModelOutline.set_of_ne _ _ (Ne.symm hne)).trans ho,
        hshows.of_extends hext⟩

end Model

namespace Edit

variable {m : Model} {outline : ModelOutline}

/-- Declaring adds to the outline of the model. -/
lemma computes_declare (hm : m.Coherent False) (h : m.Realizes outline) (header : Header) :
    (declare header).Computes m (outline.declare header) fun id outline' m' =>
      m'.Realizes outline' ∧ m'.lookup header.name = some id := by
  have hknown : (outline header.name).isSome = (m.lookup header.name).isSome := by
    cases hname : m.lookup header.name with
    | none =>
      rw [h.unknown header.name hname]
      rfl
    | some id =>
      obtain ⟨d, o, -, ho, -⟩ := h.known header.name id hname
      rw [ho]
      rfl
  rw [declare, ModelOutline.declare, hknown]
  refine computes_get_bind ?_
  split
  · exact computes_throw _
  · dsimp only
    split
    · exact computes_throw _
    · refine (ensures_modifyGet _).mpr ⟨_, rfl, h.insertDeclaration hm header, ?_⟩
      rw [insertDeclaration_eq, lookup_pushDeclaration]
      rw [(internSelfType_frame m _ _).1]
      exact if_pos rfl

/-- Declaring everything adds everything to the outline of the model, and each entry is then known
by its name. -/
lemma computes_declareAll (hm : m.Coherent False) (h : m.Realizes outline)
    (entries : List DeclarationEntry) :
    (entries.mapM fun entry => declare entry.header).Computes m
      (entries.foldlM (fun outline entry => outline.declare entry.header) outline)
      fun ids outline' m' => (m'.Coherent False ∧ m.Extends m') ∧ m'.Realizes outline' ∧
        List.Forall₂ (fun entry id => m'.lookup entry.name = some id) entries ids := by
  induction entries generalizing m outline with
  | nil => exact computes_pure ⟨⟨hm, Extends.refl m⟩, h, .nil⟩
  | cons entry entries ih =>
    rw [List.mapM_cons, List.foldlM_cons]
    have hfirst := (computes_declare hm h entry.header).and_keeps (keeps_declare entry.header) hm
    refine hfirst.bind fun id outline' m' _ ⟨⟨h', hid⟩, hm', hext⟩ => ?_
    rw [bind_pure_comp]
    refine (ih hm' h').map fun ids outline'' m'' ⟨⟨hm'', hext'⟩, h'', hids⟩ => ?_
    refine ⟨⟨hm'', hext.trans hext'⟩, h'', .cons ?_ hids⟩
    exact hm'.lookup_of_extends hm''.toLinked hext' hid

end Edit

end ParcelCompanion
