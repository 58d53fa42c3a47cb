import ParcelCompanion.Document.Build
import ParcelCompanion.Proofs.Edit.Resolution
import ParcelCompanion.Proofs.Written.Proper

/-!
# The steps of completing a declaration

Completing the declaration of an entry takes a model through five kinds of steps: types are stored,
names that mean nothing are stored as unresolved types, the declaration is changed, and fields of
the declaration are added.  A relation between models that follows each of these steps, and goes on
from one to the next, holds between the models before and after completing.
-/

namespace ParcelCompanion

open Model WrittenType

variable {p : WrittenType → Prop} {r : Model → Model → Prop} {decl : DeclId}

/-- A relation follows the steps in which the declaration `decl` is completed with written types
that meet the condition `p`. -/
structure Model.Follows (p : WrittenType → Prop) (r : Model → Model → Prop) (decl : DeclId) :
    Prop where
  inherited : Inherited p
  refl : ∀ m, r m m
  trans : ∀ m m' m'', r m m' → r m' m'' → r m m''
  /-- A type is stored that is not unresolved. -/
  intern : ∀ m term, (∀ text, term ≠ .unresolved text) → r m (m.intern term).2
  /-- A name that is no keyword and means no declaration is stored, together with its arguments. -/
  unresolved : ∀ m name args, p (.named name args) →
    (args = [] → Primitive.ofKeyword? name = none) → m.findDeclaration decl name = .ok none →
    r m (m.intern (.unresolved (WrittenType.named name args).text)).2
  /-- What the declaration refers to is changed. -/
  modify : ∀ m change, (∀ d, (change d).name = d.name) → r m (m.modifyDeclaration decl change)
  /-- A field is added. -/
  insert : ∀ m field, field.enclosing = decl → r m (m.insertElement field).2

namespace Edit

variable {α β γ : Type} {edit : Edit α} {m : Model}

/-- Whether it answers or fails, the edit leaves behind a model that is related to the one it was
given. -/
def Leads (r : Model → Model → Prop) (edit : Edit α) (m : Model) : Prop :=
  edit.Ensures m (fun _ m' => r m m') fun _ m' => r m m'

section Follows

variable (hr : Follows p r decl)

include hr

/-! ### Putting edits together -/

lemma leads_pure (a : α) : (pure a : Edit α).Leads r m :=
  (ensures_pure a).mpr (hr.refl m)

lemma leads_throw (e : ModelError) : (throw e : Edit α).Leads r m :=
  (ensures_throw e).mpr (hr.refl m)

lemma Leads.bind {next : α → Edit β} (h : edit.Leads r m)
    (hnext : ∀ a m', (next a).Leads r m') : (edit >>= next).Leads r m := by
  rw [Leads, ensures_bind]
  refine Ensures.mono h (fun a m' hm' => ?_) fun _ _ => id
  exact (hnext a m').mono (fun _ m'' => hr.trans m m' m'' hm') fun _ m'' => hr.trans m m' m'' hm'

lemma Leads.map (h : edit.Leads r m) (f : α → β) : (f <$> edit).Leads r m := by
  rw [← bind_pure_comp]
  exact h.bind hr fun a m' => leads_pure hr (f a)

omit hr in
lemma leads_get_bind {next : Model → Edit α} (h : (next m).Leads r m) :
    (get >>= next : Edit α).Leads r m :=
  ensures_get_bind h

lemma leads_liftM_bind {answer : Except ModelError β} {next : β → Edit α}
    (h : ∀ b, answer = .ok b → (next b).Leads r m) :
    (liftM answer >>= next : Edit α).Leads r m :=
  ensures_liftM_bind h fun _ _ => hr.refl m

lemma leads_forM {f : β → Edit Unit} {xs : List β} (h : ∀ x ∈ xs, ∀ m, (f x).Leads r m) :
    (xs.forM f).Leads r m := by
  induction xs generalizing m with
  | nil => exact leads_pure hr ()
  | cons x xs ih =>
    obtain ⟨hx, hxs⟩ := List.forall_mem_cons.mp h
    rw [List.forM_eq_forM, List.forM_cons, ← List.forM_eq_forM]
    exact (hx m).bind hr fun _ _ => ih hxs

lemma leads_mapM {f : β → Edit α} {xs : List β} (h : ∀ x ∈ xs, ∀ m, (f x).Leads r m) :
    (xs.mapM f).Leads r m := by
  induction xs generalizing m with
  | nil => exact leads_pure hr []
  | cons x xs ih =>
    obtain ⟨hx, hxs⟩ := List.forall_mem_cons.mp h
    rw [List.mapM_cons]
    exact (hx m).bind hr fun _ _ => (ih hxs).bind hr fun _ _ => leads_pure hr _

/-- A check of several things changes nothing. -/
lemma leads_check {answer : β → Except ModelError γ} (xs : List β) :
    (xs.forM fun x => do let _ ← answer x : Edit Unit).Leads r m :=
  leads_forM hr fun _ _ _ => leads_liftM_bind hr fun _ _ => leads_pure hr ()

/-! ### Types -/

lemma leads_intern {term : TypeTerm} (hterm : ∀ text, term ≠ .unresolved text) :
    (intern term).Leads r m :=
  (ensures_modifyGet _).mpr (hr.intern m term hterm)

lemma leads_primitive (kind : Primitive) : (primitive kind).Leads r m :=
  leads_intern hr nofun

lemma leads_parameter (owner : DeclId) (index : ℕ) : (parameter owner index).Leads r m :=
  leads_get_bind (leads_liftM_bind hr fun _ _ => leads_intern hr nofun)

lemma leads_declared (other : DeclId) (args : List TypeId) : (declared other args).Leads r m :=
  leads_get_bind (leads_liftM_bind hr fun _ _ =>
    (leads_check hr args).bind hr fun _ _ => leads_intern hr nofun)

/-- A word that means nothing is no keyword. -/
lemma leads_resolveWord_bind (name : String) {next : Option TypeId → Edit α}
    (hsome : ∀ id m', (next (some id)).Leads r m')
    (hnone : Primitive.ofKeyword? name = none → ∀ m', (next none).Leads r m') :
    (resolveWord decl name >>= next).Leads r m := by
  unfold resolveWord
  cases hkeyword : Primitive.ofKeyword? name with
  | some kind =>
    dsimp only
    rw [bind_map_left]
    exact (leads_primitive hr kind).bind hr fun id m' => hsome id m'
  | none =>
    dsimp only
    rw [bind_assoc]
    refine leads_get_bind ?_
    rw [bind_assoc]
    refine leads_liftM_bind hr fun found _ => ?_
    cases found with
    | none =>
      rw [pure_bind]
      exact hnone hkeyword m
    | some found =>
      rw [bind_map_left]
      exact (leads_parameter hr _ _).bind hr fun id m' => hsome id m'

/-- A type becomes unresolved only when its name means no declaration. -/
lemma leads_resolveDeclared (name : String) {args : List WrittenType} (htype : p (.named name args))
    (hkeyword : args = [] → Primitive.ofKeyword? name = none)
    (hargs : ∀ m, (resolveAll decl args).Leads r m) :
    (resolveDeclared decl name args).Leads r m := by
  refine leads_get_bind (leads_liftM_bind hr fun found hfound => ?_)
  split
  · exact (ensures_modifyGet _).mpr (hr.unresolved m name args htype hkeyword hfound)
  · refine leads_get_bind (leads_liftM_bind hr fun d _ => ?_)
    dsimp only
    split
    · exact leads_throw hr _
    · exact (hargs m).bind hr fun _ _ => leads_declared hr _ _

mutual

lemma leads_resolve (type : WrittenType) (htype : p type) {m : Model} :
    (resolve decl type).Leads r m := by
  match type with
  | .named name args =>
    have hargs : ∀ arg ∈ args, p arg := hr.inherited.args name args htype
    have hdeclared : (args = [] → Primitive.ofKeyword? name = none) →
        ∀ m, (resolveDeclared decl name args).Leads r m :=
      fun hkeyword _ => leads_resolveDeclared hr name htype hkeyword
        fun _ => leads_resolveAll args hargs
    rw [resolve_named]
    split
    · refine leads_resolveWord_bind hr name (fun id _ => leads_pure hr id) fun hkeyword => ?_
      exact hdeclared fun _ => hkeyword
    · next hempty =>
      rw [pure_bind]
      exact hdeclared (fun h => absurd (List.isEmpty_iff.mpr h) hempty) m
  | .array element =>
    rw [resolve]
    exact (leads_resolve element (hr.inherited.element element htype)).bind hr
      fun _ _ => leads_intern hr nofun
  | .wildcard =>
    rw [resolve]
    exact leads_intern hr nofun
  | .bounded kind bound =>
    have hbound := hr.inherited.bound kind bound htype
    cases kind <;> rw [resolve]
    all_goals exact (leads_resolve bound hbound).bind hr fun _ _ => leads_intern hr nofun
termination_by structural type

lemma leads_resolveAll (types : List WrittenType) (htypes : ∀ type ∈ types, p type) {m : Model} :
    (resolveAll decl types).Leads r m := by
  match types with
  | [] =>
    rw [resolveAll]
    exact leads_pure hr []
  | type :: types =>
    obtain ⟨htype, htypes⟩ := List.forall_mem_cons.mp htypes
    rw [resolveAll]
    exact (leads_resolve type htype).bind hr fun _ _ =>
      (leads_resolveAll types htypes).bind hr fun _ _ => leads_pure hr _
termination_by structural types

end

lemma leads_resolveText (text : String) : (resolveText decl text).Leads r m := by
  unfold resolveText
  split
  · next type htype => exact leads_resolve hr type (hr.inherited.parsed text type htype)
  · exact leads_throw hr _

/-! ### Entries -/

lemma leads_modifyDeclaration {change : Declaration → Declaration}
    (hname : ∀ d, (change d).name = d.name) :
    (modify fun m => m.modifyDeclaration decl change : Edit Unit).Leads r m :=
  (ensures_modify _).mpr (hr.modify m change hname)

lemma leads_setBounds (index : ℕ) (bounds : List TypeId) :
    (setBounds decl index bounds).Leads r m :=
  leads_get_bind ((leads_check hr bounds).bind hr fun _ _ =>
    leads_liftM_bind hr fun _ _ => leads_modifyDeclaration hr fun _ => rfl)

lemma leads_setSuperclass (superclass : TypeId) : (setSuperclass decl superclass).Leads r m :=
  leads_get_bind (leads_liftM_bind hr fun _ _ => leads_liftM_bind hr fun _ _ =>
    leads_modifyDeclaration hr fun _ => rfl)

lemma leads_addInterface (interface : TypeId) : (addInterface decl interface).Leads r m :=
  leads_get_bind (leads_liftM_bind hr fun _ _ => leads_liftM_bind hr fun _ _ =>
    leads_modifyDeclaration hr fun _ => rfl)

lemma leads_addField {field : Field} (henclosing : field.enclosing = decl) :
    (addField field).Leads r m :=
  leads_get_bind (leads_liftM_bind hr fun _ _ => leads_liftM_bind hr fun _ _ =>
    (ensures_modifyGet _).mpr (hr.insert m field henclosing))

lemma leads_bound (parameter : ParameterEntry) (index : ℕ) :
    (DeclarationEntry.bound decl parameter index).Leads r m :=
  (leads_mapM hr fun text _ _ => leads_resolveText hr text).bind hr fun _ _ =>
    leads_setBounds hr index _

lemma leads_superclass (text : String) :
    (do Edit.setSuperclass decl (← Edit.resolveText decl text)).Leads r m :=
  (leads_resolveText hr text).bind hr fun _ _ => leads_setSuperclass hr _

lemma leads_interface (text : String) :
    (do Edit.addInterface decl (← Edit.resolveText decl text)).Leads r m :=
  (leads_resolveText hr text).bind hr fun _ _ => leads_addInterface hr _

lemma leads_field (field : FieldEntry) :
    (DeclarationEntry.addField decl field).Leads r m :=
  (leads_resolveText hr field.type).bind hr fun _ _ =>
    (leads_addField hr rfl).bind hr fun _ _ => leads_pure hr ()

/-- What follows the steps of completing holds from before to after. -/
lemma leads_complete (entry : DeclarationEntry) : (entry.complete decl).Leads r m := by
  refine (leads_forM hr fun p _ _ => leads_bound hr p.1 p.2).bind hr fun _ m' => ?_
  have hsuper : (entry.superclass.forM fun text => do
      Edit.setSuperclass decl (← Edit.resolveText decl text)).Leads r m' := by
    cases entry.superclass with
    | none => exact leads_pure hr ()
    | some text => exact leads_superclass hr text
  refine hsuper.bind hr fun _ _ => ?_
  refine (leads_forM hr fun text _ _ => leads_interface hr text).bind hr fun _ _ => ?_
  exact leads_forM hr fun field _ _ => leads_field hr field

end Follows

end Edit

end ParcelCompanion
