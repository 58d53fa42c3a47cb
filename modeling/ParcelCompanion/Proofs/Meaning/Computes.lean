import ParcelCompanion.Proofs.Edit.Keeps
import ParcelCompanion.Proofs.Meaning.Names

/-!
# Edits and computations without a model

An edit computes what a computation without a model says when it fails exactly if that has no
answer, and otherwise has an answer that corresponds to it.  There is one rule for each way of
putting edits together.  `Finds` is the form for edits that add types and nothing else; what they
find are trees, and there is one statement for each way of making a type.
-/

namespace ParcelCompanion

open Model

/-! ### Models with more types -/

/-- The coherent model `m'` is `m` with more types. -/
structure Model.AddsTypes (m m' : Model) : Prop where
  coherent : m'.Coherent False
  toExtends : m.Extends m'
  declarations : m'.declarations = m.declarations
  declarationIds : m'.declarationIds = m.declarationIds
  elements : m'.elements = m.elements

namespace Model.AddsTypes

variable {m m' m'' : Model}

protected lemma refl (h : m.Coherent False) : m.AddsTypes m :=
  ⟨h, Extends.refl m, rfl, rfl, rfl⟩

protected lemma trans (h : m.AddsTypes m') (h' : m'.AddsTypes m'') : m.AddsTypes m'' :=
  ⟨h'.coherent, h.toExtends.trans h'.toExtends, h'.declarations.trans h.declarations,
    h'.declarationIds.trans h.declarationIds, h'.elements.trans h.elements⟩

lemma declaration?_eq (h : m.AddsTypes m') : m'.declaration? = m.declaration? := by
  funext id
  rw [declaration?, declaration?, h.declarations]

lemma lookup_eq (h : m.AddsTypes m') : m'.lookup = m.lookup := by
  funext name
  rw [lookup, lookup, h.declarationIds]

lemma names_eq (h : m.AddsTypes m') : m'.names = m.names := by
  funext name
  rw [Model.names, Model.names, h.lookup_eq, h.declaration?_eq]

end Model.AddsTypes

namespace Edit

variable {α β γ δ : Type} {edit : Edit α} {m : Model} {answer : Option β}
  {q : α → β → Model → Prop}

/-! ### Computations without a model -/

/-- The edit fails when the computation has no answer, and otherwise its answer and the model that
it leaves behind correspond to the answer of the computation. -/
def Computes (edit : Edit α) (m : Model) (answer : Option β) (q : α → β → Model → Prop) : Prop :=
  edit.Ensures m (fun a m' => ∃ b, answer = some b ∧ q a b m') fun _ _ => answer = none

lemma computes_pure {a : α} {b : β} (h : q a b m) : (pure a : Edit α).Computes m (some b) q :=
  (ensures_pure a).mpr ⟨b, rfl, h⟩

lemma computes_throw (e : ModelError) : (throw e : Edit α).Computes m (none : Option β) q :=
  (ensures_throw e).mpr rfl

lemma Computes.mono {q' : α → β → Model → Prop} (h : edit.Computes m answer q)
    (hq : ∀ a b m', q a b m' → q' a b m') : edit.Computes m answer q' :=
  Ensures.mono h (fun a m' ⟨b, hb, hab⟩ => ⟨b, hb, hq a b m' hab⟩) fun _ _ => id

/-- The answer of the computation may be put into another form. -/
lemma Computes.map_answer {g : β → δ} {r : α → δ → Model → Prop} (h : edit.Computes m answer q)
    (hq : ∀ a b m', q a b m' → r a (g b) m') : edit.Computes m (answer.map g) r := by
  refine Ensures.mono h (fun a m' ⟨b, hb, hab⟩ => ?_) fun e m' hnone => ?_
  · exact ⟨g b, by rw [hb, Option.map_some], hq a b m' hab⟩
  · rw [hnone, Option.map_none]

/-- The answer of an edit may be put into another form. -/
lemma Computes.map {f : α → γ} {r : γ → β → Model → Prop} (h : edit.Computes m answer q)
    (hq : ∀ a b m', q a b m' → r (f a) b m') : (f <$> edit).Computes m answer r := by
  unfold Computes
  rw [← bind_pure_comp, ensures_bind]
  exact Ensures.mono h (fun a m' ⟨b, hb, hab⟩ => ⟨b, hb, hq a b m' hab⟩) fun _ _ => id

/-- What an edit keeps it also keeps when it computes something. -/
lemma Computes.and_keeps {strict : Prop} {r : α → Model → Prop} (h : edit.Computes m answer q)
    (hkeeps : edit.Keeps strict m r) (hm : m.Coherent strict) :
    edit.Computes m answer
      fun a b m' => q a b m' ∧ m'.Coherent strict ∧ m.Extends m' := by
  refine (Ensures.and h (hkeeps hm)).mono ?_ fun _ _ ⟨hnone, _⟩ => hnone
  exact fun a m' ⟨⟨b, hb, hab⟩, hm', hextends, _⟩ => ⟨b, hb, hab, hm', hextends⟩

lemma Computes.bind {next : α → Edit γ} {cont : β → Option δ} {r : γ → δ → Model → Prop}
    (h : edit.Computes m answer q)
    (hnext : ∀ a b m', answer = some b → q a b m' → (next a).Computes m' (cont b) r) :
    (edit >>= next).Computes m (answer.bind cont) r := by
  unfold Computes
  rw [ensures_bind]
  refine Ensures.mono h (fun a m' ⟨b, hb, hab⟩ => ?_) fun e m' hnone => ?_
  · rw [hb, Option.bind_some]
    exact hnext a b m' hb hab
  · rw [hnone, Option.bind_none]

/-- An edit may begin by looking at the model. -/
lemma computes_get_bind {next : Model → Edit α} (h : (next m).Computes m answer q) :
    (get >>= next : Edit α).Computes m answer q :=
  ensures_get_bind h

/-- An edit may go on with the answer to a question. -/
lemma computes_liftM_bind {question : Except ModelError γ} {c : γ} {next : γ → Edit α}
    (hquestion : question = .ok c) (h : (next c).Computes m answer q) :
    (liftM question >>= next : Edit α).Computes m answer q :=
  ensures_liftM_bind (fun _ hanswer => Except.ok.inj (hquestion.symm.trans hanswer) ▸ h)
    fun _ herror => nomatch hquestion.symm.trans herror

/-- A check of several things that are all there lets the edit go on. -/
lemma computes_forM_liftM_bind {question : γ → Except ModelError δ} {xs : List γ}
    {next : Unit → Edit α} (hxs : ∀ x ∈ xs, ∃ c, question x = .ok c)
    (h : (next ()).Computes m answer q) :
    ((xs.forM fun x => do let _ ← question x : Edit Unit) >>= next).Computes m answer q := by
  rwa [check_eq_pure hxs, pure_bind]

/-- Edits that go through a list compute what is computed along the list. -/
lemma computes_forM {f : γ → Edit Unit} {g : β → γ → Option β} {q : β → Model → Prop}
    {xs : List γ} (h : ∀ x ∈ xs, ∀ b m, q b m → (f x).Computes m (g b x) fun _ => q) {b : β}
    (hb : q b m) : (xs.forM f).Computes m (xs.foldlM g b) fun _ => q := by
  induction xs generalizing b m with
  | nil => exact computes_pure hb
  | cons x xs ih =>
    rw [List.forM_eq_forM, List.forM_cons, ← List.forM_eq_forM, List.foldlM_cons]
    refine (h x List.mem_cons_self b m hb).bind fun _ b' m' _ hb' => ?_
    exact ih (fun y hy => h y (List.mem_cons_of_mem _ hy)) hb'

/-! ### Edits that find types -/

/-- On a coherent model the edit adds types and nothing else, and computes what is said. -/
def Finds (edit : Edit α) (m : Model) (answer : Option β) (q : α → β → Model → Prop) : Prop :=
  m.Coherent False → edit.Computes m answer fun a b m' => m.AddsTypes m' ∧ q a b m'

lemma finds_pure {a : α} {b : β} (h : q a b m) : (pure a : Edit α).Finds m (some b) q :=
  fun hm => computes_pure ⟨AddsTypes.refl hm, h⟩

lemma Finds.bind {next : α → Edit γ} {cont : β → Option δ} {r : γ → δ → Model → Prop}
    (h : edit.Finds m answer q)
    (hnext : ∀ a b m', m.AddsTypes m' → q a b m' → (next a).Finds m' (cont b) r) :
    (edit >>= next).Finds m (answer.bind cont) r := by
  intro hm
  refine (h hm).bind fun a b m' _ ⟨hadds, hab⟩ => ?_
  exact (hnext a b m' hadds hab hadds.coherent).mono
    fun c d m'' ⟨hadds', hcd⟩ => ⟨hadds.trans hadds', hcd⟩

lemma Finds.map {f : α → γ} {g : β → δ} {r : γ → δ → Model → Prop} (h : edit.Finds m answer q)
    (hq : ∀ a b m', q a b m' → r (f a) (g b) m') : (f <$> edit).Finds m (answer.map g) r := by
  rw [← bind_pure_comp, Option.map_eq_bind]
  exact h.bind fun a b m' _ hab => finds_pure (hq a b m' hab)

/-- Types that are found one after the other are found together. -/
lemma finds_mapM {f : γ → Edit TypeId} {g : γ → Option TypeTree} {xs : List γ}
    (h : ∀ x ∈ xs, ∀ m', m.AddsTypes m' →
      (f x).Finds m' (g x) fun id tree m'' => m''.Denotes id tree) :
    (xs.mapM f).Finds m (xs.mapM g) fun ids trees m' => m'.DenotesAll ids trees := by
  intro hm
  induction xs generalizing m with
  | nil => exact finds_pure rfl hm
  | cons x xs ih =>
    rw [List.mapM_cons, List.mapM_cons]
    refine (h x List.mem_cons_self m (AddsTypes.refl hm)).bind (fun id tree m' hadds hid => ?_) hm
    have hrest : (xs.mapM f).Finds m' (xs.mapM g) fun ids trees m'' => m''.DenotesAll ids trees :=
      ih fun y hy m'' hadds' => h y (List.mem_cons_of_mem _ hy) m'' (hadds.trans hadds')
    refine hrest.bind fun ids trees m'' hadds' hids => finds_pure ?_
    exact ⟨id, ids, rfl, hid.of_extends hadds'.toExtends, hids⟩

lemma finds_intern {term : TypeTerm} {b : β} {q : TypeId → β → Model → Prop}
    (hterm : term.Admissible False m.arity m.types.toList)
    (h : ∀ id m', m.AddsTypes m' → m'.type? id = some term → q id b m') :
    (intern term).Finds m (some b) q := by
  intro hm
  obtain ⟨hdeclarations, hids, helements⟩ := intern_frame m term
  have hadds : m.AddsTypes (m.intern term).2 :=
    ⟨hm.intern hterm, intern_extends m term, hdeclarations, hids, helements⟩
  exact (ensures_modifyGet _).mpr
    ⟨b, rfl, hadds, h _ _ hadds (type?_intern hm.interned term)⟩

lemma finds_primitive (kind : Primitive) :
    (primitive kind).Finds m (some (.primitive kind)) fun id tree m' => m'.Denotes id tree :=
  finds_intern trivial fun _ _ _ hid => hid

lemma finds_unresolved (name : String) :
    (unresolved name).Finds m (some (.unresolved name)) fun id tree m' => m'.Denotes id tree :=
  finds_intern trivial fun _ _ _ hid => hid

lemma finds_array {element : TypeId} {tree : TypeTree} (h : m.Denotes element tree) :
    (array element).Finds m (some (.array tree)) fun id tree m' => m'.Denotes id tree :=
  finds_intern nofun fun _ _ hadds hid => ⟨element, hid, h.of_extends hadds.toExtends⟩

lemma finds_wildcard :
    (wildcard none none).Finds m (some .wildcard) fun id tree m' => m'.Denotes id tree :=
  finds_intern nofun fun _ _ _ hid => hid

lemma finds_upper {bound : TypeId} {tree : TypeTree} (h : m.Denotes bound tree) :
    (wildcard (some bound) none).Finds m (some (.bounded .upper tree))
      fun id tree m' => m'.Denotes id tree :=
  finds_intern nofun fun _ _ hadds hid => ⟨bound, hid, h.of_extends hadds.toExtends⟩

lemma finds_lower {bound : TypeId} {tree : TypeTree} (h : m.Denotes bound tree) :
    (wildcard none (some bound)).Finds m (some (.bounded .lower tree))
      fun id tree m' => m'.Denotes id tree :=
  finds_intern nofun fun _ _ hadds hid => ⟨bound, hid, h.of_extends hadds.toExtends⟩

/-- A type parameter is found when its owner is there and has it. -/
lemma finds_parameter {owner : DeclId} {index : ℕ} {d : Declaration} {parameter : TypeParameter}
    (hd : m.declaration? owner = some d)
    (hparameter : d.parameters[index % UInt32.size]? = some parameter) :
    (Edit.parameter owner index).Finds m
      (some (.parameter d.name (index % UInt32.size) parameter.name))
      fun id tree m' => m'.Denotes id tree := by
  intro hm
  have hquestion := typeParameter_eq_ok_iff.mpr ⟨d, hd, hparameter⟩
  refine computes_get_bind (computes_liftM_bind hquestion ?_)
  refine finds_intern ?_ (fun id m' hadds hid => ?_) hm
  · refine ⟨d.parameters.length, ?_, (List.getElem?_eq_some_iff.mp hparameter).1⟩
    rw [arity, hd, Option.map_some]
  · rw [← hadds.declaration?_eq] at hd
    exact ⟨owner, d, parameter, hid, hd, rfl, hparameter, rfl⟩

/-- A declaration is applied to types that are there. -/
lemma finds_declared {decl : DeclId} {d : Declaration} {args : List TypeId}
    {trees : List TypeTree} (hd : m.declaration? decl = some d) (hargs : m.DenotesAll args trees) :
    (declared decl args).Finds m (some (.declared d.name trees))
      fun id tree m' => m'.Denotes id tree := by
  intro hm
  have hthere := hargs.exists_type?
  refine computes_get_bind (computes_liftM_bind (declaration_eq_ok_iff.mpr hd) ?_)
  refine computes_forM_liftM_bind (fun arg harg => ?_)
    (finds_intern ?_ (fun id m' hadds hid => ?_) hm)
  · obtain ⟨term, hterm⟩ := hthere arg harg
    exact ⟨term, type_eq_ok_iff.mpr hterm⟩
  · refine ⟨⟨d.parameters.length, ?_, nofun⟩, fun arg harg => ?_⟩
    · rw [arity, hd, Option.map_some]
    · obtain ⟨term, hterm⟩ := hthere arg harg
      exact index_lt_of_type? hterm
  · rw [← hadds.declaration?_eq] at hd
    exact ⟨decl, d, args, hid, hd, rfl, hargs.of_extends hadds.toExtends⟩

end Edit

end ParcelCompanion
