import ParcelCompanion.Proofs.Edit.Calls
import ParcelCompanion.Proofs.Model.CanonicalName

/-!
# Edits that keep models grounded

The components of a type stand below it when they are there before it is made.  For declared types
this is checked, for arrays and wildcards it is not.  So a coherent model is grounded when the
components of its arrays and wildcards stand below them, and every edit keeps it so, except for one
that makes an array or a wildcard of types that are not there.  Resolution makes them only of types
that it has just made.
-/

namespace ParcelCompanion

/-- The components of a type that are not checked when it is made. -/
def TypeTerm.unchecked : TypeTerm → List TypeId
  | .array element => [element]
  | .wildcard upper lower => upper.toList ++ lower.toList
  | _ => []

namespace Model

variable {strict : Prop} {m m' : Model}

/-! ### What is not checked -/

/-- The components of arrays and wildcards stand below them. -/
def Based (m : Model) : Prop :=
  ∀ id term, m.type? id = some term → ∀ c ∈ term.unchecked, c.index < id.index

/-- Only arrays and wildcards can keep a coherent model from being grounded. -/
lemma Coherent.grounded_of_based (h : m.Coherent strict) (hbased : m.Based) : m.Grounded := by
  intro id term hid c hc
  cases term with
  | declared decl args =>
    have hlt := (h.interned.admissible id _ hid).2 c hc
    rw [List.length_take] at hlt
    omega
  | array element => exact hbased id _ hid c hc
  | wildcard upper lower => exact hbased id _ hid c hc
  | _ => exact nomatch hc

lemma Based.of_types (h : m.Based) (htypes : m'.types = m.types) : m'.Based := by
  intro id term hid
  rw [type?, htypes] at hid
  exact h id term hid

/-- A new type comes after its components if these are there. -/
lemma Based.intern (h : m.Based) {term : TypeTerm}
    (hterm : ∀ c ∈ term.unchecked, c.index < m.types.size) : (m.intern term).2.Based := by
  intro id other hid
  rcases type?_of_intern hid with hold | ⟨hindex, rfl⟩
  · exact h id other hold
  · rwa [hindex]

lemma Based.internAll (h : m.Based) {terms : List TypeTerm}
    (hterms : ∀ term ∈ terms, term.unchecked = []) : (m.internAll terms).2.Based := by
  induction terms generalizing m with
  | nil => exact h
  | cons term terms ih =>
    obtain ⟨hterm, hterms⟩ := List.forall_mem_cons.mp hterms
    exact ih (h.intern (hterm ▸ nofun)) hterms

/-- A declaration brings along its own type and its type parameters, which are always checked. -/
lemma Based.insertDeclaration (h : m.Based) (name package : String) (kind : DeclKind)
    (modifiers : Modifiers) (parameters : List String) :
    (m.insertDeclaration name package kind modifiers parameters).2.Based := by
  rw [insertDeclaration_eq]
  have hparameters : ∀ term ∈ (List.range parameters.length).map
      (TypeTerm.parameter ⟨m.declarations.size⟩), term.unchecked = [] := by
    intro term hterm
    obtain ⟨i, -, rfl⟩ := List.mem_map.mp hterm
    rfl
  have hself : (m.internSelfType ⟨m.declarations.size⟩ parameters.length).2.Based :=
    (h.internAll hparameters).intern nofun
  exact hself.of_types rfl

end Model

namespace Edit

open Model

variable {α β γ : Type} {edit : Edit α} {m : Model} {q : α → Model → Prop}

/-! ### Putting edits together -/

/-- If the components of arrays and wildcards stand below them in the coherent model `m`, so they do
in the model that the edit leaves behind. -/
def Grounds (edit : Edit α) (m : Model) : Prop :=
  m.Coherent False → m.Based → edit.Ensures m (fun _ m' => m'.Based) fun _ m' => m'.Based

lemma grounds_pure (a : α) : (pure a : Edit α).Grounds m :=
  fun _ hbased => (ensures_pure a).mpr hbased

lemma grounds_throw (e : ModelError) : (throw e : Edit α).Grounds m :=
  fun _ hbased => (ensures_throw e).mpr hbased

/-- What an edit keeps is known to the edit that follows. -/
lemma Grounds.bind {next : α → Edit β} (h : edit.Grounds m) (hkeeps : edit.Keeps False m q)
    (hnext : ∀ a m', q a m' → (next a).Grounds m') : (edit >>= next).Grounds m := by
  intro hm hbased
  rw [ensures_bind]
  refine ((hkeeps hm).and (h hm hbased)).mono ?_ ?_
  · exact fun a m' ⟨⟨hm', _, ha⟩, hbased'⟩ => hnext a m' ha hm' hbased'
  · exact fun _ _ ⟨_, hbased'⟩ => hbased'

lemma Grounds.map (h : edit.Grounds m) (f : α → β) : (f <$> edit).Grounds m := by
  intro hm hbased
  rw [← bind_pure_comp, ensures_bind]
  exact (h hm hbased).mono (fun _ _ => id) fun _ _ => id

/-- The answer of an edit may be dropped. -/
lemma Grounds.drop (h : edit.Grounds m) : (do let _ ← edit : Edit Unit).Grounds m :=
  fun hm hbased => (ensures_bind _).mpr (h hm hbased)

lemma grounds_get_bind {next : Model → Edit α} (h : (next m).Grounds m) :
    (get >>= next : Edit α).Grounds m :=
  fun hm hbased => ensures_get_bind (h hm hbased)

lemma grounds_liftM_bind {answer : Except ModelError β} {next : β → Edit α}
    (h : ∀ b, answer = .ok b → (next b).Grounds m) :
    (liftM answer >>= next : Edit α).Grounds m :=
  fun hm hbased => ensures_liftM_bind (fun b hb => h b hb hm hbased) fun _ _ => hbased

lemma grounds_forM_liftM_bind {answer : β → Except ModelError γ} {xs : List β}
    {next : Unit → Edit α} (h : (next ()).Grounds m) :
    ((xs.forM fun x => do let _ ← answer x : Edit Unit) >>= next).Grounds m :=
  fun hm hbased => ensures_check_bind (fun _ => h hm hbased) fun _ _ _ _ => hbased

/-! ### The steps of building a model -/

/-- Types that are there are earlier than any new type. -/
lemma grounds_intern {term : TypeTerm}
    (hterm : ∀ c ∈ term.unchecked, ∃ component, m.type? c = some component) :
    (intern term).Grounds m := by
  refine fun _ hbased => (ensures_modifyGet _).mpr (hbased.intern fun c hc => ?_)
  obtain ⟨component, hcomponent⟩ := hterm c hc
  exact index_lt_of_type? hcomponent

lemma grounds_primitive (kind : Primitive) : (primitive kind).Grounds m :=
  grounds_intern nofun

lemma grounds_unresolved (name : String) : (unresolved name).Grounds m :=
  grounds_intern nofun

lemma grounds_array {element : TypeId} (h : ∃ term, m.type? element = some term) :
    (array element).Grounds m :=
  grounds_intern fun _ hc => List.mem_singleton.mp hc ▸ h

lemma grounds_wildcard {upper lower : Option TypeId}
    (h : ∀ bound ∈ upper.toList ++ lower.toList, ∃ term, m.type? bound = some term) :
    (wildcard upper lower).Grounds m :=
  grounds_intern h

lemma grounds_declared (decl : DeclId) (args : List TypeId) : (declared decl args).Grounds m :=
  grounds_get_bind (grounds_liftM_bind fun _ _ => grounds_forM_liftM_bind (grounds_intern nofun))

lemma grounds_parameter (owner : DeclId) (index : ℕ) : (parameter owner index).Grounds m :=
  grounds_get_bind (grounds_liftM_bind fun _ _ => grounds_intern nofun)

/-- A change of a declaration does not touch the types. -/
lemma grounds_modifyDeclaration (id : DeclId) (change : Declaration → Declaration) :
    (modify fun m => m.modifyDeclaration id change : Edit Unit).Grounds m :=
  fun _ hbased => (ensures_modify _).mpr (hbased.of_types rfl)

lemma grounds_declare (header : Header) : (declare header).Grounds m :=
  fun _ hbased => ensures_declare (fun _ _ => hbased.insertDeclaration _ _ _ _ _) fun _ => hbased

lemma grounds_setSuperclass (decl : DeclId) (superclass : TypeId) :
    (setSuperclass decl superclass).Grounds m :=
  grounds_get_bind (grounds_liftM_bind fun _ _ => grounds_liftM_bind fun _ _ =>
    grounds_modifyDeclaration _ _)

lemma grounds_addInterface (decl : DeclId) (interface : TypeId) :
    (addInterface decl interface).Grounds m :=
  grounds_get_bind (grounds_liftM_bind fun _ _ => grounds_liftM_bind fun _ _ =>
    grounds_modifyDeclaration _ _)

lemma grounds_setBounds (owner : DeclId) (index : ℕ) (bounds : List TypeId) :
    (setBounds owner index bounds).Grounds m :=
  grounds_get_bind (grounds_forM_liftM_bind (grounds_liftM_bind fun _ _ =>
    grounds_modifyDeclaration _ _))

lemma grounds_addField (field : Field) : (addField field).Grounds m :=
  grounds_get_bind (grounds_liftM_bind fun _ _ => grounds_liftM_bind fun _ _ =>
    fun _ hbased => (ensures_modifyGet _).mpr (hbased.of_types rfl))

/-! ### Resolution -/

lemma grounds_resolveWord (context : DeclId) (name : String) :
    (resolveWord context name).Grounds m := by
  unfold resolveWord
  split
  · exact (grounds_primitive _).map _
  · refine grounds_get_bind (grounds_liftM_bind fun found _ => ?_)
    split
    · exact (grounds_parameter _ _).map _
    · exact grounds_pure none

lemma grounds_resolveDeclared (context : DeclId) (name : String) {args : List WrittenType}
    (hargs : ∀ m : Model, (resolveAll context args).Grounds m) :
    (resolveDeclared context name args).Grounds m := by
  refine grounds_get_bind (grounds_liftM_bind fun found _ => ?_)
  split
  · exact grounds_unresolved _
  · refine grounds_get_bind (grounds_liftM_bind fun d _ => ?_)
    dsimp only
    split
    · exact grounds_throw _
    · exact (hargs m).bind (keeps_resolveAll context args False.elim)
        fun ids _ _ => grounds_declared _ ids

mutual

/-- Resolution makes arrays and wildcards of types that it has resolved before. -/
lemma grounds_resolve (context : DeclId) (type : WrittenType) {m : Model} :
    (resolve context type).Grounds m := by
  match type with
  | .named name args =>
    have hdeclared : ∀ m : Model, (resolveDeclared context name args).Grounds m :=
      fun _ => grounds_resolveDeclared context name fun _ => grounds_resolveAll context args
    rw [resolve_named]
    split
    · refine (grounds_resolveWord context name).bind (keeps_resolveWord context name)
        fun id? m' _ => ?_
      cases id? with
      | none => exact hdeclared m'
      | some id => exact grounds_pure id
    · exact hdeclared m
  | .array element =>
    rw [resolve]
    exact (grounds_resolve context element).bind (keeps_resolve context element False.elim)
      fun id m' ⟨term, hterm, _⟩ => grounds_array ⟨term, hterm⟩
  | .wildcard =>
    rw [resolve]
    exact grounds_wildcard nofun
  | .bounded kind bound =>
    cases kind <;> rw [resolve]
    all_goals
      refine (grounds_resolve context bound).bind (keeps_resolve context bound False.elim)
        fun id m' ⟨term, hterm, _⟩ => grounds_wildcard fun c hc => ?_
      obtain rfl : c = id := by simpa using hc
      exact ⟨term, hterm⟩
termination_by structural type

lemma grounds_resolveAll (context : DeclId) (types : List WrittenType) {m : Model} :
    (resolveAll context types).Grounds m := by
  match types with
  | [] =>
    rw [resolveAll]
    exact grounds_pure []
  | type :: types =>
    rw [resolveAll]
    refine (grounds_resolve context type).bind (keeps_resolve context type False.elim)
      fun id _ _ => ?_
    exact (grounds_resolveAll context types).bind (keeps_resolveAll context types False.elim)
      fun ids _ _ => grounds_pure (id :: ids)
termination_by structural types

end

lemma grounds_resolveText (context : DeclId) (text : String) :
    (resolveText context text).Grounds m := by
  unfold resolveText
  split
  · exact grounds_resolve context _
  · exact grounds_throw _

end Edit

/-! ### Calls -/

namespace Call

open Edit Model

/-- The types of which a call makes an array or a wildcard are there. -/
def Grounded (m : Model) : Call → Prop
  | array element => ∃ term, m.type? element = some term
  | wildcard upper lower =>
    ∀ bound ∈ upper.toList ++ lower.toList, ∃ term, m.type? bound = some term
  | _ => True

/-- The types of which a sequence of calls makes arrays and wildcards are there, each when its turn
comes. -/
def AllGrounded : Model → List Call → Prop
  | _, [] => True
  | m, call :: calls => call.Grounded m ∧ AllGrounded (call.run m) calls

lemma Grounded.grounds_perform {m : Model} {call : Call} (h : call.Grounded m) :
    call.perform.Grounds m := by
  cases call with
  | declare header => exact (grounds_declare header).drop
  | primitive kind => exact (grounds_primitive kind).drop
  | declared decl args => exact (grounds_declared decl args).drop
  | parameter owner index => exact (grounds_parameter owner index).drop
  | array element => exact (grounds_array h).drop
  | wildcard upper lower => exact (grounds_wildcard h).drop
  | unresolved name => exact (grounds_unresolved name).drop
  | setSuperclass decl superclass => exact grounds_setSuperclass decl superclass
  | addInterface decl interface => exact grounds_addInterface decl interface
  | setBounds owner index bounds => exact grounds_setBounds owner index bounds
  | addField field => exact (grounds_addField field).drop
  | resolve context type => exact (grounds_resolve context type).drop
  | resolveText context text => exact (grounds_resolveText context text).drop

/-- One call keeps the components of arrays and wildcards below them. -/
lemma Grounded.run_based {m : Model} {call : Call} (h : call.Grounded m) (hm : m.Coherent False)
    (hbased : m.Based) : (call.run m).Based :=
  run_of_ensures (h.grounds_perform hm hbased)

/-- A sequence of calls keeps the components of arrays and wildcards below them, if each call makes
them of types that are there when its turn comes. -/
lemma AllGrounded.foldl_run_based {m : Model} {calls : List Call} (h : AllGrounded m calls)
    (hm : m.Coherent False) (hbased : m.Based) : (calls.foldl run m).Based := by
  induction calls generalizing m with
  | nil => exact hbased
  | cons call calls ih => exact ih h.2 (call.run_coherent hm).1 (h.1.run_based hm hbased)

end Call

/-- The components of the types of the platform stand below them. -/
lemma Model.based_platform : platform.Based := by
  intro id term hid c hc
  have hcoherent : platform.Coherent True := coherent_platform
  refine hcoherent.grounded id term hid c ?_
  cases term with
  | array element => exact hc
  | wildcard upper lower => exact hc
  | _ => exact nomatch hc

end ParcelCompanion
