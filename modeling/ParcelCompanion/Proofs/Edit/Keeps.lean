import ParcelCompanion.Proofs.Edit.Outcome
import ParcelCompanion.Proofs.Model.Declare

/-!
# Edits keep models coherent

Every edit, whether it answers or fails, leaves behind a coherent model that extends the one it was
given.  `Keeps` states this together with what is known of the answer, with a rule for each way of
putting edits together and one statement for each step of building a model.
-/

namespace ParcelCompanion.Edit

open Model

variable {α β γ : Type} {strict : Prop} {edit : Edit α} {m : Model} {q : α → Model → Prop}

/-- If `m` is coherent, so is the model that the edit leaves behind, which extends `m`.  The answer,
if there is one, satisfies `q` in it. -/
def Keeps (strict : Prop) (edit : Edit α) (m : Model) (q : α → Model → Prop) : Prop :=
  m.Coherent strict → edit.Ensures m (fun a m' => m'.Coherent strict ∧ m.Extends m' ∧ q a m')
    fun _ m' => m'.Coherent strict ∧ m.Extends m'

/-! ### Putting edits together -/

lemma keeps_pure {a : α} (ha : q a m) : (pure a : Edit α).Keeps strict m q :=
  fun hm => (ensures_pure a).mpr ⟨hm, Extends.refl m, ha⟩

lemma keeps_throw (e : ModelError) : (throw e : Edit α).Keeps strict m q :=
  fun hm => (ensures_throw e).mpr ⟨hm, Extends.refl m⟩

lemma Keeps.mono {q' : α → Model → Prop} (h : edit.Keeps strict m q)
    (hq : ∀ a m', m.Extends m' → q a m' → q' a m') : edit.Keeps strict m q' :=
  fun hm => (h hm).mono (fun a m' ⟨hm', hext, ha⟩ => ⟨hm', hext, hq a m' hext ha⟩) fun _ _ => id

lemma Keeps.bind {next : α → Edit β} {r : β → Model → Prop} (h : edit.Keeps strict m q)
    (hnext : ∀ a m', m'.Coherent strict → m.Extends m' → q a m' → (next a).Keeps strict m' r) :
    (edit >>= next).Keeps strict m r := by
  intro hm
  rw [ensures_bind]
  refine (h hm).mono (fun a m' ⟨hm', hext, ha⟩ => ?_) fun _ _ => id
  refine (hnext a m' hm' hext ha hm').mono ?_ ?_
  · exact fun b m'' ⟨hm'', hext', hb⟩ => ⟨hm'', hext.trans hext', hb⟩
  · exact fun e m'' ⟨hm'', hext'⟩ => ⟨hm'', hext.trans hext'⟩

lemma Keeps.map {f : α → β} {r : β → Model → Prop} (h : edit.Keeps strict m q)
    (hf : ∀ a m', q a m' → r (f a) m') : (f <$> edit).Keeps strict m r := by
  rw [← bind_pure_comp]
  exact h.bind fun a m' _ _ ha => keeps_pure (hf a m' ha)

/-- The answer of an edit may be dropped. -/
lemma Keeps.drop (h : edit.Keeps strict m q) :
    (do let _ ← edit : Edit Unit).Keeps strict m fun _ _ => True :=
  h.bind fun _ _ _ _ _ => keeps_pure trivial

/-- An edit may begin by looking at the model. -/
lemma keeps_get_bind {next : Model → Edit α} (h : (next m).Keeps strict m q) :
    (get >>= next : Edit α).Keeps strict m q :=
  fun hm => ensures_get_bind (h hm)

/-- An edit may go on with the answer to a question, or fail with its error. -/
lemma keeps_liftM_bind {answer : Except ModelError β} {next : β → Edit α}
    (h : ∀ b, answer = .ok b → (next b).Keeps strict m q) :
    (liftM answer >>= next : Edit α).Keeps strict m q :=
  fun hm => ensures_liftM_bind (fun b hb => h b hb hm) fun _ _ => ⟨hm, Extends.refl m⟩

/-- A check of several things lets the edit go on when all of them are there. -/
lemma keeps_forM_liftM_bind {answer : β → Except ModelError γ} {xs : List β} {next : Unit → Edit α}
    (h : (∀ x ∈ xs, ∃ c, answer x = .ok c) → (next ()).Keeps strict m q) :
    ((xs.forM fun x => do let _ ← answer x : Edit Unit) >>= next).Keeps strict m q :=
  fun hm => ensures_check_bind (fun hxs => h hxs hm) fun _ _ _ _ => ⟨hm, Extends.refl m⟩

/-- Edits that go through a list keep what each of them keeps. -/
lemma keeps_forM {f : β → Edit Unit} {xs : List β}
    (h : ∀ x ∈ xs, ∀ m', m.Extends m' → (f x).Keeps strict m' fun _ _ => True) :
    (xs.forM f).Keeps strict m fun _ _ => True := by
  induction xs generalizing m with
  | nil => exact keeps_pure trivial
  | cons x xs ih =>
    rw [List.forM_eq_forM, List.forM_cons, ← List.forM_eq_forM]
    refine (h x List.mem_cons_self m (Extends.refl m)).bind fun _ m' _ hext _ => ?_
    exact ih fun y hy m'' hext' => h y (List.mem_cons_of_mem _ hy) m'' (hext.trans hext')

/-- The answers of edits that go through a list satisfy what each answer satisfies, provided that
growing models keep it. -/
lemma keeps_mapM {f : β → Edit α} {xs : List β}
    (hq : ∀ a m' m'', m'.Extends m'' → q a m' → q a m'')
    (h : ∀ x ∈ xs, ∀ m', m.Extends m' → (f x).Keeps strict m' q) :
    (xs.mapM f).Keeps strict m fun as m' => ∀ a ∈ as, q a m' := by
  induction xs generalizing m with
  | nil => exact keeps_pure nofun
  | cons x xs ih =>
    rw [List.mapM_cons]
    refine (h x List.mem_cons_self m (Extends.refl m)).bind fun a m' _ hext ha => ?_
    have hxs := ih fun y hy m'' hext' => h y (List.mem_cons_of_mem _ hy) m'' (hext.trans hext')
    refine (hxs.mono fun as m'' hext' has => And.intro hext' has).bind
      fun as m'' _ _ ⟨hext', has⟩ => keeps_pure fun b hb => ?_
    rcases List.mem_cons.mp hb with rfl | hb
    · exact hq b m' m'' hext' ha
    · exact has b hb

/-! ### Types -/

lemma keeps_intern {term : TypeTerm} (hterm : term.Admissible strict m.arity m.types.toList) :
    (intern term).Keeps strict m fun id m' => m'.type? id = some term :=
  fun hm => (ensures_modifyGet _).mpr
    ⟨hm.intern hterm, intern_extends m term, type?_intern hm.interned term⟩

lemma keeps_primitive (kind : Primitive) :
    (primitive kind).Keeps strict m fun id m' => m'.type? id = some (.primitive kind) :=
  keeps_intern trivial

lemma keeps_unresolved (name : String) :
    (unresolved name).Keeps strict m fun id m' => m'.type? id = some (.unresolved name) :=
  keeps_intern trivial

/-- Arrays are not checked, so that in the strict degree the element has to be there. -/
lemma keeps_array {element : TypeId} (h : strict → m.Usable True element) :
    (array element).Keeps strict m fun id m' => m'.type? id = some (.array element) :=
  keeps_intern fun hs => (h hs).isProper

/-- Wildcards are not checked, so that in the strict degree the bound has to be there. -/
lemma keeps_wildcard {upper lower : Option TypeId}
    (h : strict → (upper = none ∨ lower = none) ∧
      ∀ bound ∈ upper.toList ++ lower.toList, m.Usable True bound) :
    (wildcard upper lower).Keeps strict m
      fun id m' => m'.type? id = some (.wildcard upper lower) :=
  keeps_intern fun hs => ⟨(h hs).1, fun bound hbound => ((h hs).2 bound hbound).isProper⟩

lemma keeps_parameter (owner : DeclId) (index : ℕ) :
    (parameter owner index).Keeps strict m
      fun id m' => m'.type? id = some (.parameter owner (index % UInt32.size)) := by
  refine keeps_get_bind (keeps_liftM_bind fun p hp => keeps_intern ?_)
  obtain ⟨d, hd, hindex⟩ := typeParameter_eq_ok_iff.mp hp
  refine ⟨d.parameters.length, ?_, (List.getElem?_eq_some_iff.mp hindex).1⟩
  rw [arity, hd, Option.map_some]

/-- The number of type arguments is not checked, so that in the strict degree it has to be right. -/
lemma keeps_declared {decl : DeclId} {args : List TypeId}
    (h : strict → args = [] ∨ m.arity decl = some args.length) :
    (declared decl args).Keeps strict m fun id m' => m'.type? id = some (.declared decl args) := by
  refine keeps_get_bind (keeps_liftM_bind fun d hd => keeps_forM_liftM_bind fun hargs => ?_)
  have hn : m.arity decl = some d.parameters.length := by
    rw [arity, declaration_eq_ok_iff.mp hd, Option.map_some]
  refine keeps_intern ⟨⟨d.parameters.length, hn, fun hs => ?_⟩, fun arg harg => ?_⟩
  · refine (h hs).imp_right fun hlength => ?_
    rw [hn] at hlength
    exact (Option.some.inj hlength).symm
  · obtain ⟨term, hterm⟩ := hargs arg harg
    exact index_lt_of_type? (type_eq_ok_iff.mp hterm)

/-! ### Declarations -/

lemma keeps_modifyDeclaration {id : DeclId} {change : Declaration → Declaration}
    (hbare : ∀ d, (change d).bare = d.bare)
    (hreferences : ∀ d, ∀ t ∈ (change d).references, t ∈ d.references ∨ m.Usable strict t) :
    (modify fun m => m.modifyDeclaration id change : Edit Unit).Keeps strict m fun _ _ => True :=
  fun hm => (ensures_modify _).mpr ⟨hm.modifyDeclaration hbare fun d _ => hreferences d,
    (modifyDeclaration_redeclares m id hbare).toExtends, trivial⟩

lemma keeps_declare (header : Header) :
    (declare header).Keeps strict m fun _ _ => True :=
  fun hm => ensures_declare
    (fun hnew _ => ⟨hm.insertDeclaration hnew .., insertDeclaration_extends .., trivial⟩)
    fun _ => ⟨hm, Extends.refl m⟩

/-! ### Supertypes, bounds and fields

Each of these checks that what it refers to is there.  Whether it is a wildcard is not checked, so
that in the strict degree it has to be known.
-/

lemma keeps_setSuperclass {decl : DeclId} {superclass : TypeId}
    (h : strict → m.Usable True superclass) :
    (setSuperclass decl superclass).Keeps strict m fun _ _ => True := by
  refine keeps_get_bind (keeps_liftM_bind fun term hterm => keeps_liftM_bind fun _ _ => ?_)
  refine keeps_modifyDeclaration (fun _ => rfl) fun d t ht => ?_
  rw [Declaration.mem_references] at ht ⊢
  rcases ht with hself | hsuper | hrest
  · exact Or.inl (Or.inl hself)
  · exact Or.inr (Option.some.inj hsuper ▸ usable_of_type? (type_eq_ok_iff.mp hterm) h)
  · exact Or.inl (Or.inr (Or.inr hrest))

lemma keeps_addInterface {decl : DeclId} {interface : TypeId}
    (h : strict → m.Usable True interface) :
    (addInterface decl interface).Keeps strict m fun _ _ => True := by
  refine keeps_get_bind (keeps_liftM_bind fun term hterm => keeps_liftM_bind fun _ _ => ?_)
  refine keeps_modifyDeclaration (fun _ => rfl) fun d t ht => ?_
  rw [Declaration.mem_references] at ht ⊢
  rcases ht with hself | hsuper | hinterface | hbound
  · exact Or.inl (Or.inl hself)
  · exact Or.inl (Or.inr (Or.inl hsuper))
  · rcases List.mem_append.mp hinterface with hold | hnew
    · exact Or.inl (Or.inr (Or.inr (Or.inl hold)))
    · exact Or.inr (List.mem_singleton.mp hnew ▸ usable_of_type? (type_eq_ok_iff.mp hterm) h)
  · exact Or.inl (Or.inr (Or.inr (Or.inr hbound)))

/-- After the bounds of a type parameter were replaced, every bound is one of the new ones or was
there before. -/
lemma mem_bounds_of_modify {parameters : List TypeParameter} {index : ℕ} {bounds : List TypeId}
    {parameter : TypeParameter} {t : TypeId} (ht : t ∈ parameter.bounds)
    (h : parameter ∈ parameters.modify index fun parameter => { parameter with bounds }) :
    t ∈ bounds ∨ ∃ old ∈ parameters, t ∈ old.bounds := by
  obtain ⟨i, hi⟩ := List.mem_iff_getElem?.mp h
  rw [List.getElem?_modify] at hi
  obtain ⟨old, hold, rfl⟩ := Option.map_eq_some_iff.mp hi
  by_cases hindex : index = i
  · rw [if_pos hindex] at ht
    exact Or.inl ht
  · rw [if_neg hindex] at ht
    exact Or.inr ⟨old, List.mem_iff_getElem?.mpr ⟨i, hold⟩, ht⟩

lemma keeps_setBounds {owner : DeclId} {index : ℕ} {bounds : List TypeId}
    (h : strict → ∀ bound ∈ bounds, m.Usable True bound) :
    (setBounds owner index bounds).Keeps strict m fun _ _ => True := by
  refine keeps_get_bind (keeps_forM_liftM_bind fun hbounds => keeps_liftM_bind fun _ _ => ?_)
  refine keeps_modifyDeclaration (fun d => ?_) fun d t ht => ?_
  · rw [Declaration.bare, Declaration.bare, map_modify_eq_map]
    exact fun _ => rfl
  · rw [Declaration.mem_references] at ht ⊢
    rcases ht with hself | hsuper | hinterface | ⟨parameter, hparameter, ht⟩
    · exact Or.inl (Or.inl hself)
    · exact Or.inl (Or.inr (Or.inl hsuper))
    · exact Or.inl (Or.inr (Or.inr (Or.inl hinterface)))
    · rcases mem_bounds_of_modify ht hparameter with hnew | hold
      · obtain ⟨term, hterm⟩ := hbounds t hnew
        exact Or.inr (usable_of_type? (type_eq_ok_iff.mp hterm) fun hs => h hs t hnew)
      · exact Or.inl (Or.inr (Or.inr (Or.inr hold)))

lemma keeps_addField {field : Field} (h : strict → m.Usable True field.type) :
    (addField field).Keeps strict m fun _ _ => True := by
  refine keeps_get_bind (keeps_liftM_bind fun d hd => keeps_liftM_bind fun term hterm => ?_)
  intro hm
  rw [ensures_modifyGet]
  exact ⟨hm.insertElement (usable_of_type? (type_eq_ok_iff.mp hterm) h)
    ⟨d, declaration_eq_ok_iff.mp hd⟩, insertElement_extends m field, trivial⟩

end ParcelCompanion.Edit
