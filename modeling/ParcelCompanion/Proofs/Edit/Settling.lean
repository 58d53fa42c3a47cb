import ParcelCompanion.Proofs.Meaning.Computes
import ParcelCompanion.Proofs.Model.Packages

/-!
# Resolution settles

Resolution looks names up among the declarations and stores types.  What it looks up does not change
until there is another declaration, and the types that it stored are found the next time.  So an
edit that resolves something settles: repeated on any later model with the same declarations, it
answers or fails as it did, and the model stays as it is.

`Continues` relates a model to such a later model, and `Gains` to what an edit that settles makes of
it, whether this answers or fails.
-/

namespace ParcelCompanion

namespace Model

variable {m m' m'' : Model}

/-! ### More types -/

/-- The coherent model `m'` is `m` with more types at the end, and the components of these are
there. -/
structure Gains (m m' : Model) : Prop extends m.AddsTypes m' where
  appended : ∃ added, m'.types.toList = m.types.toList ++ added ∧
    ∀ term ∈ added, ∀ c ∈ term.components, ∃ component, m'.type? c = some component

namespace Gains

protected lemma refl (h : m.Coherent False) : m.Gains m :=
  ⟨AddsTypes.refl h, [], (List.append_nil _).symm, nofun⟩

protected lemma trans (h : m.Gains m') (h' : m'.Gains m'') : m.Gains m'' := by
  obtain ⟨added, htypes, hadded⟩ := h.appended
  obtain ⟨added', htypes', hadded'⟩ := h'.appended
  refine ⟨h.toAddsTypes.trans h'.toAddsTypes, added ++ added', ?_, fun term hterm c hc => ?_⟩
  · rw [htypes', htypes, List.append_assoc]
  · rcases List.mem_append.mp hterm with hold | hnew
    · obtain ⟨component, hcomponent⟩ := hadded term hold c hc
      exact ⟨component, h'.toExtends.type? hcomponent⟩
    · exact hadded' term hnew c hc

end Gains

/-- A type whose components are there may be stored. -/
lemma Coherent.intern_gains (h : m.Coherent False) {term : TypeTerm}
    (hterm : term.Admissible False m.arity m.types.toList)
    (hcomponents : ∀ c ∈ term.components, ∃ component, m.type? c = some component) :
    m.Gains (m.intern term).2 := by
  have hext := intern_extends m term
  obtain ⟨hdeclarations, hids, helements⟩ := intern_frame m term
  refine ⟨⟨h.intern hterm, hext, hdeclarations, hids, helements⟩, ?_⟩
  rcases intern_cases h.interned term with ⟨-, hsame⟩ | ⟨-, hpush⟩
  · rw [hsame]
    exact ⟨[], (List.append_nil _).symm, nofun⟩
  · refine ⟨[term], by rw [hpush]; exact Array.toList_push, fun other hother c hc => ?_⟩
    obtain rfl := List.mem_singleton.mp hother
    obtain ⟨component, hcomponent⟩ := hcomponents c hc
    exact ⟨component, hext.type? hcomponent⟩

/-- A type that is there is found under its number. -/
lemma Coherent.intern_eq (h : m.Coherent False) {term : TypeTerm} {id : TypeId}
    (hid : m.type? id = some term) : m.intern term = (id, m) := by
  rw [Model.intern, (h.interned.table term id).mpr hid]

/-! ### Later models with the same declarations -/

/-- The coherent model `m'` extends `m` and has no more declarations. -/
structure Continues (m m' : Model) : Prop where
  coherent : m'.Coherent False
  toExtends : m.Extends m'
  sameSize : m.SameSize m'

namespace Continues

protected lemma refl (h : m.Coherent False) : m.Continues m :=
  ⟨h, Extends.refl m, rfl⟩

protected lemma trans (h : m.Continues m') (h' : m'.Continues m'') : m.Continues m'' :=
  ⟨h'.coherent, h.toExtends.trans h'.toExtends, h'.sameSize.trans h.sameSize⟩

/-- A declaration is in both models or in neither. -/
lemma declaration_cases (h : m.Continues m') (id : DeclId) :
    (∃ d d', m.declaration? id = some d ∧ m'.declaration? id = some d' ∧ d'.bare = d.bare) ∨
      m.declaration? id = none ∧ m'.declaration? id = none := by
  cases hd : m.declaration? id with
  | some d =>
    obtain ⟨d', hd', hbare⟩ := h.toExtends.declaration? hd
    exact Or.inl ⟨d, d', rfl, hd', hbare⟩
  | none =>
    have hsize : m'.declarations.size = m.declarations.size := h.sameSize
    have hindex : m.declarations.size ≤ id.index := Array.getElem?_eq_none_iff.mp hd
    exact Or.inr ⟨rfl, Array.getElem?_eq_none_iff.mpr (hsize ▸ hindex)⟩

/-- A type parameter has the same name later, or asking for it fails in the same way. -/
lemma typeParameter_eq (h : m.Continues m') (owner : DeclId) (index : ℕ) :
    TypeParameter.name <$> m'.typeParameter owner index =
      TypeParameter.name <$> m.typeParameter owner index := by
  have hanswer {m : Model} {d : Declaration} (hd : m.declaration? owner = some d) :
      TypeParameter.name <$> m.typeParameter owner index =
        (d.parameters.map TypeParameter.name)[index]?.elim
          (.error (.invalidTypeParameter d.name index)) .ok := by
    rw [typeParameter, declaration_eq_ok_iff.mpr hd, List.getElem?_map]
    simp only [bind, Except.bind]
    cases d.parameters[index]? <;> rfl
  rcases h.declaration_cases owner with ⟨d, d', hd, hd', hbare⟩ | ⟨hnone, hnone'⟩
  · rw [hanswer hd, hanswer hd', Declaration.parameterNames_eq_of_bare hbare,
      Declaration.name_eq_of_bare hbare]
  · rw [typeParameter, typeParameter, declaration_of_eq_none hnone, declaration_of_eq_none hnone']

/-- Names are those of the same declarations. -/
lemma lookup_eq (h : m.Continues m') (hm : m.Coherent False) : m'.lookup = m.lookup := by
  funext name
  apply Option.ext
  intro id
  constructor
  · intro hid
    obtain ⟨d', hd', rfl⟩ := (h.coherent.names name id).mp hid
    rcases h.declaration_cases id with ⟨d, d'', hd, hd'', hbare⟩ | ⟨-, hnone⟩
    · obtain rfl := Option.some.inj (hd'.symm.trans hd'')
      exact (hm.names _ id).mpr ⟨d, hd, (Declaration.name_eq_of_bare hbare).symm⟩
    · exact nomatch hd'.symm.trans hnone
  · exact hm.lookup_of_extends h.coherent.toLinked h.toExtends

lemma names_eq (h : m.Continues m') (hm : m.Coherent False) : m'.names = m.names :=
  hm.names_of_extends h.toExtends (h.lookup_eq hm)

/-- A name means the same type parameter, in every context. -/
lemma findParameter_eq (h : m.Continues m') (hm : m.Coherent False) (context : DeclId)
    (name : String) : m'.findParameter context name = m.findParameter context name := by
  rcases h.declaration_cases context with ⟨d, d', hd, hd', hbare⟩ | ⟨hnone, hnone'⟩
  · rw [h.coherent.findParameter_eq hd', hm.findParameter_eq hd, h.names_eq hm, h.lookup_eq hm,
      Declaration.name_eq_of_bare hbare, Declaration.scope_eq_of_bare hbare]
  · rw [findParameter_of_no_context hnone name, findParameter_of_no_context hnone' name]

/-- A name means the same declaration, in every context. -/
lemma findDeclaration_eq (h : m.Continues m') (hm : m.Coherent False) (context : DeclId)
    (name : String) : m'.findDeclaration context name = m.findDeclaration context name := by
  rcases h.declaration_cases context with ⟨d, d', hd, hd', hbare⟩ | ⟨hnone, hnone'⟩
  · rw [h.coherent.findDeclaration_eq hd', hm.findDeclaration_eq hd, h.names_eq hm, h.lookup_eq hm,
      Declaration.name_eq_of_bare hbare, Declaration.scope_eq_of_bare hbare]
  · rw [findDeclaration_of_no_context hnone name, findDeclaration_of_no_context hnone' name]

end Continues

lemma Gains.continues (h : m.Gains m') : m.Continues m' :=
  ⟨h.coherent, h.toExtends, congrArg Array.size h.declarations⟩

end Model

namespace Edit

open Model

variable {α β γ : Type} {edit : Edit α} {m : Model} {q : α → Model → Prop}

/-! ### Putting edits together -/

/-- On a coherent model the edit gains types and nothing else, whether it answers or fails, and on
every model that continues the one it leaves behind it has the same result and changes nothing.  The
answer, if there is one, satisfies `q`. -/
def Settles (edit : Edit α) (m : Model) (q : α → Model → Prop) : Prop :=
  m.Coherent False → edit.Ensures m
    (fun a m' => m.Gains m' ∧ q a m' ∧
      ∀ later, m'.Continues later → edit.apply later = (.ok a, later))
    fun e m' => m.Gains m' ∧ ∀ later, m'.Continues later → edit.apply later = (.error e, later)

lemma settles_pure {a : α} (ha : q a m) : (pure a : Edit α).Settles m q :=
  fun hm => (ensures_pure a).mpr ⟨Gains.refl hm, ha, fun _ _ => rfl⟩

lemma settles_throw (e : ModelError) : (throw e : Edit α).Settles m q :=
  fun hm => (ensures_throw e).mpr ⟨Gains.refl hm, fun _ _ => rfl⟩

/-- An edit that settles gains types and nothing else, whether it answers or fails. -/
lemma Settles.gains (h : edit.Settles m q) (hm : m.Coherent False) :
    edit.Ensures m (fun _ m' => m.Gains m') fun _ m' => m.Gains m' :=
  (h hm).mono (fun _ _ ⟨hgains, _⟩ => hgains) fun _ _ ⟨hgains, _⟩ => hgains

/-- The first edit settles already on the model that it leaves to the second. -/
lemma Settles.bind {next : α → Edit β} {r : β → Model → Prop} (h : edit.Settles m q)
    (hnext : ∀ a m', m.Gains m' → q a m' → (next a).Settles m' r) :
    (edit >>= next).Settles m r := by
  intro hm
  rw [ensures_bind]
  refine (h hm).mono (fun a m' ⟨hgains, ha, hfirst⟩ => ?_) fun e m' ⟨hgains, hfirst⟩ => ?_
  · refine (hnext a m' hgains ha hgains.coherent).mono ?_ ?_
    · rintro b m'' ⟨hgains', hb, hsecond⟩
      refine ⟨hgains.trans hgains', hb, fun later hlater => ?_⟩
      rw [apply_bind, hfirst later (hgains'.continues.trans hlater)]
      exact hsecond later hlater
    · rintro e m'' ⟨hgains', hsecond⟩
      refine ⟨hgains.trans hgains', fun later hlater => ?_⟩
      rw [apply_bind, hfirst later (hgains'.continues.trans hlater)]
      exact hsecond later hlater
  · refine ⟨hgains, fun later hlater => ?_⟩
    rw [apply_bind, hfirst later hlater]

lemma Settles.map {f : α → β} {r : β → Model → Prop} (h : edit.Settles m q)
    (hf : ∀ a m', q a m' → r (f a) m') : (f <$> edit).Settles m r := by
  rw [← bind_pure_comp]
  exact h.bind fun a m' _ ha => settles_pure (hf a m' ha)

/-- An edit may begin by looking at the model, if it goes on in the same way after looking at a later
one. -/
lemma settles_get_bind {next : Model → Edit α} (h : (next m).Settles m q)
    (hnext : m.Coherent False → ∀ later, m.Continues later → next later = next m) :
    (get >>= next : Edit α).Settles m q := by
  intro hm
  have hlook (later : Model) (hlater : m.Continues later) :
      (get >>= next : Edit α).apply later = (next m).apply later := by
    rw [← hnext hm later hlater]
    rfl
  refine (h hm).mono (fun a m' ⟨hgains, ha, hsame⟩ => ⟨hgains, ha, fun later hlater => ?_⟩)
    fun e m' ⟨hgains, hsame⟩ => ⟨hgains, fun later hlater => ?_⟩
  · rw [hlook later (hgains.continues.trans hlater), hsame later hlater]
  · rw [hlook later (hgains.continues.trans hlater), hsame later hlater]

lemma settles_liftM_bind {answer : Except ModelError β} {next : β → Edit α}
    (h : ∀ b, answer = .ok b → (next b).Settles m q) :
    (liftM answer >>= next : Edit α).Settles m q := by
  cases answer with
  | ok b => exact h b rfl
  | error e => exact settles_throw e

/-- An edit that goes on without the answer to a question only depends on the error. -/
lemma liftM_bind_const (f : β → γ) {answer : Except ModelError β} {next : Edit α} :
    (liftM (f <$> answer) >>= fun _ => next : Edit α) = liftM answer >>= fun _ => next := by
  cases answer <;> rfl

/-! ### Types -/

/-- A type is there. -/
def Stored (id : TypeId) (m : Model) : Prop :=
  ∃ term, m.type? id = some term

lemma Stored.of_gains {m' : Model} {id : TypeId} (h : Stored id m) (hgains : m.Gains m') :
    Stored id m' := by
  obtain ⟨term, hid⟩ := h
  exact ⟨term, hgains.toExtends.type? hid⟩

lemma settles_intern {term : TypeTerm} (hterm : term.Admissible False m.arity m.types.toList)
    (hcomponents : ∀ c ∈ term.components, Stored c m) : (intern term).Settles m Stored := by
  intro hm
  have hid := type?_intern hm.interned term
  refine (ensures_modifyGet _).mpr
    ⟨hm.intern_gains hterm hcomponents, ⟨term, hid⟩, fun later hlater => ?_⟩
  exact congrArg (fun p : TypeId × Model => (Except.ok p.1, p.2))
    (hlater.coherent.intern_eq (hlater.toExtends.type? hid))

lemma settles_primitive (kind : Primitive) : (primitive kind).Settles m Stored :=
  settles_intern trivial nofun

lemma settles_unresolved (name : String) : (unresolved name).Settles m Stored :=
  settles_intern trivial nofun

lemma settles_array {element : TypeId} (h : Stored element m) : (array element).Settles m Stored :=
  settles_intern nofun fun _ hc => List.mem_singleton.mp hc ▸ h

lemma settles_wildcard {upper lower : Option TypeId}
    (h : ∀ bound ∈ upper.toList ++ lower.toList, Stored bound m) :
    (wildcard upper lower).Settles m Stored :=
  settles_intern nofun h

/-- Asking for a type parameter has the same result later. -/
lemma settles_parameter (owner : DeclId) (index : ℕ) :
    (Edit.parameter owner index).Settles m Stored := by
  refine settles_get_bind (settles_liftM_bind fun p hp => ?_) fun _ later hlater => ?_
  · obtain ⟨d, hd, hindex⟩ := typeParameter_eq_ok_iff.mp hp
    refine settles_intern ⟨d.parameters.length, ?_, (List.getElem?_eq_some_iff.mp hindex).1⟩ nofun
    rw [arity, hd, Option.map_some]
  · -- Only the error is passed on, and it is the same one.
    rw [← liftM_bind_const TypeParameter.name, hlater.typeParameter_eq, liftM_bind_const]

/-- A declaration that is there is applied to types that are there. -/
lemma settles_declared {decl : DeclId} {args : List TypeId} {d : Declaration}
    (hd : m.declaration? decl = some d) (hargs : ∀ arg ∈ args, Stored arg m) :
    (declared decl args).Settles m Stored := by
  have hterm : (TypeTerm.declared decl args).Admissible False m.arity m.types.toList := by
    refine ⟨⟨d.parameters.length, ?_, nofun⟩, fun arg harg => ?_⟩
    · rw [arity, hd, Option.map_some]
    · obtain ⟨term, hterm⟩ := hargs arg harg
      exact index_lt_of_type? hterm
  -- The checks pass now, and whenever the model has grown.
  have hchecked (later : Model) (hlater : m.Extends later) :
      ∀ arg ∈ args, ∃ term, later.type arg = .ok term := by
    intro arg harg
    obtain ⟨term, hterm⟩ := hargs arg harg
    exact ⟨term, type_eq_ok_iff.mpr (hlater.type? hterm)⟩
  have hnow := hchecked m (Extends.refl m)
  refine settles_get_bind ?_ fun _ later hlater => ?_
  · rw [declaration_eq_ok_iff.mpr hd, check_eq_pure hnow]
    exact settles_intern hterm hargs
  · obtain ⟨d', hd', -⟩ := hlater.toExtends.declaration? hd
    rw [declaration_eq_ok_iff.mpr hd, check_eq_pure hnow, declaration_eq_ok_iff.mpr hd',
      check_eq_pure (hchecked later hlater.toExtends)]
    rfl

/-! ### Resolution -/

/-- The answer of a search for a word is a type that is there, if there is one. -/
lemma settles_resolveWord (context : DeclId) (name : String) :
    (resolveWord context name).Settles m fun id? m' => ∀ id ∈ id?, Stored id m' := by
  unfold resolveWord
  split
  · next kind _ =>
    exact (settles_primitive kind).map fun id m' hid _ hid' => Option.some.inj hid' ▸ hid
  · refine settles_get_bind (settles_liftM_bind fun found _ => ?_) fun hm later hlater => ?_
    · rcases found with _ | ⟨owner, index⟩
      · exact settles_pure nofun
      · exact (settles_parameter owner index).map
          fun id m' hid _ hid' => Option.some.inj hid' ▸ hid
    · rw [hlater.findParameter_eq hm]

lemma settles_resolveDeclared (context : DeclId) (name : String) {args : List WrittenType}
    (hargs : ∀ m : Model, (resolveAll context args).Settles m fun ids m' => ∀ id ∈ ids, Stored id m') :
    (resolveDeclared context name args).Settles m Stored := by
  refine settles_get_bind (settles_liftM_bind fun found _ => ?_) fun hm later hlater => ?_
  · cases found with
    | none => exact settles_unresolved _
    | some decl =>
      refine settles_get_bind (settles_liftM_bind fun d hd => ?_) fun hm later hlater => ?_
      · dsimp only
        split
        · exact settles_throw _
        · refine (hargs m).bind fun ids m' hgains hids => settles_declared (d := d) ?_ hids
          rw [hgains.declaration?_eq]
          exact declaration_eq_ok_iff.mp hd
      · have hanswer (d : Declaration) :
            (liftM (.ok d : Except ModelError Declaration) : Edit Declaration) = pure d := rfl
        rcases hlater.declaration_cases decl with ⟨d, d', hd, hd', hbare⟩ | ⟨hnone, hnone'⟩
        · rw [declaration_eq_ok_iff.mpr hd, declaration_eq_ok_iff.mpr hd', hanswer, hanswer,
            pure_bind, pure_bind, Declaration.name_eq_of_bare hbare,
            Declaration.length_parameters_eq_of_bare hbare]
        · rw [declaration_of_eq_none hnone, declaration_of_eq_none hnone']
  · rw [hlater.findDeclaration_eq hm]

mutual

/-- Resolution settles on a type that is there. -/
lemma settles_resolve (context : DeclId) (type : WrittenType) {m : Model} :
    (resolve context type).Settles m Stored := by
  match type with
  | .named name args =>
    have hdeclared : ∀ m : Model, (resolveDeclared context name args).Settles m Stored :=
      fun _ => settles_resolveDeclared context name fun _ => settles_resolveAll context args
    rw [resolve_named]
    split
    · refine (settles_resolveWord context name).bind fun id? m' _ hid => ?_
      cases id? with
      | none => exact hdeclared m'
      | some id => exact settles_pure (hid id rfl)
    · exact hdeclared m
  | .array element =>
    rw [resolve]
    exact (settles_resolve context element).bind fun _ _ _ hid => settles_array hid
  | .wildcard =>
    rw [resolve]
    exact settles_wildcard nofun
  | .bounded kind bound =>
    cases kind <;> rw [resolve]
    all_goals
      refine (settles_resolve context bound).bind fun id m' _ hid => settles_wildcard fun c hc => ?_
      obtain rfl : c = id := by simpa using hc
      exact hid
termination_by structural type

lemma settles_resolveAll (context : DeclId) (types : List WrittenType) {m : Model} :
    (resolveAll context types).Settles m fun ids m' => ∀ id ∈ ids, Stored id m' := by
  match types with
  | [] =>
    rw [resolveAll]
    exact settles_pure nofun
  | type :: types =>
    rw [resolveAll]
    refine (settles_resolve context type).bind fun id m' _ hid => ?_
    refine (settles_resolveAll context types).bind fun ids m'' hgains hids => ?_
    exact settles_pure (List.forall_mem_cons.mpr ⟨hid.of_gains hgains, hids⟩)
termination_by structural types

end

/-- What a text means settles, and so does the fault of a text that is no written type. -/
lemma settles_resolveText (context : DeclId) (text : String) :
    (resolveText context text).Settles m Stored := by
  unfold resolveText
  split
  · exact settles_resolve context _
  · exact settles_throw _

end Edit

end ParcelCompanion
