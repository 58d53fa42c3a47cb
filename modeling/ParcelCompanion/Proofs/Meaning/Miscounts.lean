import ParcelCompanion.Proofs.Edit.Calls
import ParcelCompanion.Proofs.Meaning.Precedence
import ParcelCompanion.Proofs.Meaning.Reading

/-!
# What resolution fails for

A written type has no meaning only where a name with arguments is that of a declaration with another
number of type parameters.  The parts of a written type are looked at from the outside to the inside
and from the left to the right, and the first such name is what resolution complains about.  The
arguments of a name that is not declared are never looked at.
-/

namespace ParcelCompanion

open Model

namespace WrittenType

mutual

/-- The parts of a written type that are looked at, in this order.  The arguments of a name that is
not known are none of them. -/
def parts (known : String → Bool) : WrittenType → List WrittenType
  | .named name args => .named name args :: if known name then allParts known args else []
  | .array element => .array element :: element.parts known
  | .wildcard => [.wildcard]
  | .bounded kind bound => .bounded kind bound :: bound.parts known

/-- The parts of several written types that are looked at, in this order. -/
def allParts (known : String → Bool) : List WrittenType → List WrittenType
  | [] => []
  | type :: types => type.parts known ++ allParts known types

end

end WrittenType

namespace Names

variable (names : Names) (scopes : List String) (package : String)

/-- Whether a name is that of a declaration. -/
def knows (name : String) : Bool :=
  (readings scopes package name).any fun reading => (names reading).isSome

/-- The type is a name with arguments, and the declaration that is the first to be found under this
name has another number of type parameters. -/
inductive Miscounted : WrittenType → ModelError → Prop
  | intro {name owner : String} {args : List WrittenType} {declared : Scope} (hargs : args ≠ [])
    (hfirst : names.FirstDeclared (readings scopes package name) owner)
    (hdeclared : names owner = some declared) (hcount : args.length ≠ declared.parameters.length) :
    Miscounted (.named name args)
      (.invalidArgumentCount owner declared.parameters.length args.length)

/-- No name among the parts has a wrong number of arguments. -/
def Faultless (parts : List WrittenType) : Prop :=
  ∀ part ∈ parts, ∀ e, ¬ names.Miscounted scopes package part e

/-- The first part that is a name with a wrong number of arguments is at fault. -/
def FirstFault (parts : List WrittenType) (e : ModelError) : Prop :=
  ∃ before part after, parts = before ++ part :: after ∧ names.Miscounted scopes package part e ∧
    names.Faultless scopes package before

variable {names scopes package} {owner owner' : String} {part : WrittenType}
  {parts parts' : List WrittenType} {e e' : ModelError}

/-! ### Faults of lists of parts -/

/-- A part of a written type is at fault with one error only. -/
lemma Miscounted.unique (h : names.Miscounted scopes package part e)
    (h' : names.Miscounted scopes package part e') : e = e' := by
  obtain ⟨hargs, hfirst, hdeclared, hcount⟩ := h
  obtain ⟨-, hfirst', hdeclared', -⟩ := h'
  rw [firstDeclared_iff] at hfirst hfirst'
  obtain rfl := Option.some.inj (hfirst.symm.trans hfirst')
  obtain rfl := Option.some.inj (hdeclared.symm.trans hdeclared')
  rfl

lemma faultless_append_iff : names.Faultless scopes package (parts ++ parts') ↔
    names.Faultless scopes package parts ∧ names.Faultless scopes package parts' :=
  List.forall_mem_append

lemma FirstFault.append_right (h : names.FirstFault scopes package parts e)
    (parts' : List WrittenType) : names.FirstFault scopes package (parts ++ parts') e := by
  obtain ⟨before, part, after, rfl, hpart, hbefore⟩ := h
  exact ⟨before, part, after ++ parts', by simp, hpart, hbefore⟩

lemma FirstFault.append_left (h : names.FirstFault scopes package parts' e)
    (hparts : names.Faultless scopes package parts) :
    names.FirstFault scopes package (parts ++ parts') e := by
  obtain ⟨before, part, after, rfl, hpart, hbefore⟩ := h
  exact ⟨parts ++ before, part, after, by simp, hpart, faultless_append_iff.mpr ⟨hparts, hbefore⟩⟩

/-- A part that is at fault stands behind no other one, or it is not the first. -/
lemma FirstFault.unique (h : names.FirstFault scopes package parts e)
    (h' : names.FirstFault scopes package parts e') : e = e' := by
  obtain ⟨before, part, after, rfl, hpart, hbefore⟩ := h
  obtain ⟨before', part', after', heq, hpart', hbefore'⟩ := h'
  rcases List.append_eq_append_iff.mp heq with ⟨between, rfl, hrest⟩ | ⟨between, rfl, hrest⟩
  · cases between with
    | nil =>
      obtain ⟨rfl, -⟩ := List.cons.inj hrest
      exact hpart.unique hpart'
    | cons other between =>
      obtain ⟨rfl, -⟩ := List.cons.inj hrest
      exact absurd hpart (hbefore' _ (by simp) e)
  · cases between with
    | nil =>
      obtain ⟨rfl, -⟩ := List.cons.inj hrest
      exact hpart.unique hpart'
    | cons other between =>
      obtain ⟨rfl, -⟩ := List.cons.inj hrest
      exact absurd hpart' (hbefore _ (by simp) e')

/-- Among parts of which some are at fault, one is the first that is. -/
lemma exists_firstFault_iff : (∃ e, names.FirstFault scopes package parts e) ↔
    ∃ part ∈ parts, ∃ e, names.Miscounted scopes package part e := by
  constructor
  · rintro ⟨e, before, part, after, rfl, hpart, -⟩
    exact ⟨part, by simp, e, hpart⟩
  · induction parts with
    | nil => exact nofun
    | cons first parts ih =>
      rintro ⟨part, hmem, e, hpart⟩
      by_cases hfirst : ∃ e, names.Miscounted scopes package first e
      · obtain ⟨e', hfirst⟩ := hfirst
        exact ⟨e', [], first, parts, rfl, hfirst, nofun⟩
      · rcases List.mem_cons.mp hmem with rfl | hmem
        · exact absurd ⟨e, hpart⟩ hfirst
        · obtain ⟨e', hrest⟩ := ih ⟨part, hmem, e, hpart⟩
          have hsingle : names.Faultless scopes package [first] :=
            List.forall_mem_singleton.mpr (not_exists.mp hfirst)
          exact ⟨e', hrest.append_left hsingle⟩

end Names

/-! ### Resolution complains about the first fault -/

/-- Whether a name is that of a declaration in the context `d`. -/
def Model.knows (m : Model) (d : Declaration) : String → Bool :=
  m.names.knows (m.names.scopes d.name d.scope) d.package

namespace Edit

variable {α β γ : Type} {edit : Edit α} {m : Model} {context : DeclId} {d : Declaration}
  {parts parts' : List WrittenType}

/-- In the context `d`, the edit fails when one of the parts is at fault, with the error of the
first one. -/
def Reports (edit : Edit α) (m : Model) (d : Declaration) (parts : List WrittenType) : Prop :=
  edit.Ensures m (fun _ _ => m.names.Faultless (m.names.scopes d.name d.scope) d.package parts)
    fun e _ => m.names.FirstFault (m.names.scopes d.name d.scope) d.package parts e

/-- An edit that always finds something looks at no part. -/
lemma Finds.reports {b : β} {q : α → β → Model → Prop} (h : edit.Finds m (some b) q)
    (hm : m.Coherent False) : edit.Reports m d [] :=
  Ensures.mono (h hm) (fun _ _ _ => nofun) fun _ _ => nofun

/-- The error of the first part at fault is the error of the edit. -/
lemma Reports.eq_error_iff (h : edit.Reports m d parts) {e : ModelError} :
    (edit.apply m).1 = .error e ↔
      m.names.FirstFault (m.names.scopes d.name d.scope) d.package parts e := by
  rw [Reports, Ensures] at h
  rcases hr : edit.apply m with ⟨e' | a, m'⟩ <;> rw [hr] at h
  · constructor
    · rintro ⟨⟩
      exact h
    · intro hfault
      rw [h.unique hfault]
  · constructor
    · rintro ⟨⟩
    · intro hfault
      obtain ⟨part, hpart, e', hmiscounted⟩ := Names.exists_firstFault_iff.mp ⟨e, hfault⟩
      exact absurd hmiscounted (h part hpart e')

/-- An edit that finds trees answers with a type that denotes the tree, if there is one. -/
lemma Finds.exists_ok_iff {edit : Edit TypeId} {answer : Option TypeTree}
    (h : edit.Finds m answer fun id tree m' => m'.Denotes id tree) (hm : m.Coherent False)
    {tree : TypeTree} :
    (∃ id m', edit.apply m = (.ok id, m') ∧ m'.Denotes id tree) ↔ answer = some tree := by
  have hfinds := h hm
  rw [Computes, Ensures] at hfinds
  rcases hr : edit.apply m with ⟨e | id, m'⟩ <;> rw [hr] at hfinds
  · obtain rfl : answer = none := hfinds
    constructor
    · rintro ⟨_, _, heq, -⟩
      cases heq
    · rintro ⟨⟩
  · obtain ⟨found, rfl, -, hid⟩ := hfinds
    constructor
    · rintro ⟨id', m'', heq, hid'⟩
      obtain ⟨hid'', rfl⟩ := Prod.mk.inj heq
      obtain rfl := Except.ok.inj hid''
      rw [hid.unique hid']
    · intro heq
      exact ⟨id, m', rfl, Option.some.inj heq ▸ hid⟩

lemma reports_pure (a : α) (hm : m.Coherent False) : (pure a : Edit α).Reports m d [] :=
  (finds_pure (b := ()) (q := fun _ _ _ => True) trivial).reports hm

/-- A part without fault may stand before the others. -/
lemma Reports.cons (h : edit.Reports m d parts) {part : WrittenType}
    (hpart : ∀ e, ¬ m.names.Miscounted (m.names.scopes d.name d.scope) d.package part e) :
    edit.Reports m d (part :: parts) := by
  have hfaultless : m.names.Faultless (m.names.scopes d.name d.scope) d.package [part] :=
    List.forall_mem_singleton.mpr hpart
  refine Ensures.mono h (fun _ _ hparts => ?_) fun e _ he => he.append_left hfaultless
  exact Names.faultless_append_iff.mpr ⟨hfaultless, hparts⟩

/-- An edit may make use of what the edit before it has found, and looks at more parts. -/
lemma Reports.bind {next : α → Edit β} {answer : Option γ} {q : α → γ → Model → Prop}
    (h : edit.Reports m d parts) (hfinds : edit.Finds m answer q) (hm : m.Coherent False)
    (hnext : ∀ a c m', m.AddsTypes m' → q a c m' → (next a).Reports m' d parts') :
    (edit >>= next).Reports m d (parts ++ parts') := by
  rw [Reports, ensures_bind]
  refine Ensures.mono (Ensures.and h (hfinds hm)) ?_ fun e _ ⟨he, _⟩ => he.append_right parts'
  rintro a m' ⟨hparts, c, -, hadds, hac⟩
  have hnext := hnext a c m' hadds hac
  rw [Reports, hadds.names_eq] at hnext
  refine hnext.mono (fun _ _ hparts' => ?_) fun e _ he => he.append_left hparts
  exact Names.faultless_append_iff.mpr ⟨hparts, hparts'⟩

lemma reports_get_bind {next : Model → Edit α} (h : (next m).Reports m d parts) :
    (get >>= next : Edit α).Reports m d parts :=
  ensures_get_bind h

lemma reports_liftM_bind {question : Except ModelError β} {b : β} {next : β → Edit α}
    (hquestion : question = .ok b) (h : (next b).Reports m d parts) :
    (liftM question >>= next : Edit α).Reports m d parts :=
  ensures_liftM_bind (fun _ hanswer => Except.ok.inj (hquestion.symm.trans hanswer) ▸ h)
    fun _ herror => nomatch hquestion.symm.trans herror

/-- What is made of one type has no other parts but those of this type, and is never at fault. -/
lemma Reports.wrap {edit : Edit TypeId} {wrap : TypeId → Edit TypeId} {tree? : Option TypeTree}
    {f : TypeTree → TypeTree} (h : edit.Reports m d parts)
    (hfinds : edit.Finds m tree? fun id tree m' => m'.Denotes id tree) (hm : m.Coherent False)
    (hwrap : ∀ {m' : Model} {id tree}, m'.Denotes id tree →
      (wrap id).Finds m' (some (f tree)) fun id tree m'' => m''.Denotes id tree)
    {part : WrittenType}
    (hpart : ∀ e, ¬ m.names.Miscounted (m.names.scopes d.name d.scope) d.package part e) :
    (edit >>= wrap).Reports m d (part :: parts) := by
  have hreports : (edit >>= wrap).Reports m d (parts ++ []) :=
    h.bind hfinds hm fun id tree m' hadds hid => (hwrap hid).reports hadds.coherent
  rw [List.append_nil] at hreports
  exact hreports.cons hpart

/-- A name that is no word is at fault itself, or else one of its arguments. -/
lemma reports_resolveDeclared (hd : m.declaration? context = some d) (hm : m.Coherent False)
    (name : String) {args : List WrittenType}
    (hargs : (resolveAll context args).Reports m d (WrittenType.allParts (m.knows d) args)) :
    (resolveDeclared context name args).Reports m d
      ((WrittenType.named name args).parts (m.knows d)) := by
  rw [resolveDeclared]
  refine reports_get_bind (reports_liftM_bind (hm.findDeclaration_eq hd name) ?_)
  rw [WrittenType.parts]
  cases hfound : m.names.findDeclaration d.name d.scope name with
  | none =>
    have hnone := Names.findDeclaration_eq_none_iff.mp hfound
    have hknown : m.knows d name = false := by
      rw [knows, Names.knows, List.any_eq_false]
      exact fun other hother => by simp [hnone other hother]
    rw [hknown]
    refine ((finds_unresolved _).reports hm).cons fun e he => ?_
    obtain ⟨-, hfirst, -, -⟩ := he
    have hsome := Names.findDeclaration_eq_some_iff.mpr hfirst
    exact absurd (hsome.symm.trans hfound) (Option.some_ne_none _)
  | some owner =>
    have hfirst := Names.findDeclaration_eq_some_iff.mp hfound
    obtain ⟨id, e, hid, he, rfl, hnames⟩ :=
      hm.exists_of_names (Names.isSome_of_findDeclaration hfound)
    have hlength : e.scope.parameters.length = e.parameters.length := List.length_map _
    have hknown : m.knows d name = true := by
      obtain ⟨before, after, hreadings, hsome, -⟩ := hfirst
      exact List.any_eq_true.mpr ⟨e.name, hreadings ▸ by simp, hsome⟩
    rw [hknown, if_pos rfl, Option.bind_some, hid]
    refine reports_get_bind (reports_liftM_bind (declaration_eq_ok_iff.mpr he) ?_)
    dsimp only
    split
    · next hcount =>
      simp only [Bool.and_eq_true, Bool.not_eq_true', List.isEmpty_eq_false_iff, bne_iff_ne,
        ne_eq] at hcount
      rw [← hlength] at hcount
      have hfault := Names.Miscounted.intro hcount.1 hfirst hnames hcount.2
      rw [hlength] at hfault
      exact ⟨[], _, _, rfl, hfault, List.forall_mem_nil _⟩
    · next hcount =>
      have hreports := hargs.bind (finds_resolveAll context args hd) hm
        fun ids trees m' hadds hids => by
          rw [← hadds.declaration?_eq] at he
          exact (finds_declared he hids).reports hadds.coherent
      rw [List.append_nil] at hreports
      refine hreports.cons fun error herror => ?_
      obtain ⟨hne, hfirst', hdeclared, hwrong⟩ := herror
      rw [Names.firstDeclared_iff] at hfirst hfirst'
      obtain rfl := Option.some.inj (hfirst.symm.trans hfirst')
      obtain rfl := Option.some.inj (hnames.symm.trans hdeclared)
      rw [hlength] at hwrong
      exact hcount (by simp [hne, hwrong])

mutual

/-- Resolution of a written type complains about its first part that is at fault. -/
lemma reports_resolve (context : DeclId) (type : WrittenType) {m : Model}
    (hd : m.declaration? context = some d) (hm : m.Coherent False) :
    (resolve context type).Reports m d (type.parts (m.knows d)) := by
  match type with
  | .named name args =>
    have hdeclared : ∀ {m' : Model}, m.AddsTypes m' →
        (resolveDeclared context name args).Reports m' d
          ((WrittenType.named name args).parts (m.knows d)) := by
      intro m' hadds
      rw [← hadds.declaration?_eq] at hd
      have hknows : m'.knows d = m.knows d := by rw [knows, knows, hadds.names_eq]
      rw [← hknows]
      exact reports_resolveDeclared hd hadds.coherent name
        (reports_resolveAll context args hd hadds.coherent)
    rw [resolve_named]
    split
    · next hempty =>
      obtain rfl := List.isEmpty_iff.mp hempty
      have hword := finds_resolveWord hd name
      refine (hword.reports hm).bind hword hm fun id? tree? m' hadds _ => ?_
      cases id? with
      | none => exact hdeclared hadds
      | some id =>
        rw [WrittenType.allParts, ite_self]
        refine (reports_pure id hadds.coherent).cons ?_
        rintro e ⟨hne, -⟩
        exact hne rfl
    · exact hdeclared (AddsTypes.refl hm)
  | .array element =>
    rw [resolve, WrittenType.parts]
    exact (reports_resolve context element hd hm).wrap (finds_resolve context element hd) hm
      finds_array nofun
  | .wildcard =>
    rw [resolve, WrittenType.parts]
    exact (finds_wildcard.reports hm).cons nofun
  | .bounded .upper bound =>
    rw [resolve, WrittenType.parts]
    exact (reports_resolve context bound hd hm).wrap (finds_resolve context bound hd) hm
      finds_upper nofun
  | .bounded .lower bound =>
    rw [resolve, WrittenType.parts]
    exact (reports_resolve context bound hd hm).wrap (finds_resolve context bound hd) hm
      finds_lower nofun
termination_by structural type

lemma reports_resolveAll (context : DeclId) (types : List WrittenType) {m : Model}
    (hd : m.declaration? context = some d) (hm : m.Coherent False) :
    (resolveAll context types).Reports m d (WrittenType.allParts (m.knows d) types) := by
  match types with
  | [] =>
    rw [resolveAll]
    exact reports_pure [] hm
  | type :: types =>
    rw [resolveAll, WrittenType.allParts]
    refine (reports_resolve context type hd hm).bind (finds_resolve context type hd) hm
      fun id tree m' hadds _ => ?_
    rw [← hadds.declaration?_eq] at hd
    have hknows : m'.knows d = m.knows d := by rw [knows, knows, hadds.names_eq]
    rw [← hknows, ← List.append_nil (WrittenType.allParts _ _)]
    exact (reports_resolveAll context types hd hadds.coherent).bind
      (finds_resolveAll context types hd) hadds.coherent
      fun ids trees m'' hadds' _ => reports_pure _ hadds'.coherent
termination_by structural types

end

end Edit

/-! ### Resolution in a model under construction -/

namespace Model

/-- Whatever was called, a written type is resolved in every context to what it means there by the
order of names: the scopes are the context and the declared names around it that are longer than its
package, the longest first.  Resolution fails exactly when a part of the written type with
arguments, not inside the arguments of a name that is not declared, is that of a declaration with
another number of type parameters, and then it complains about the first such part. -/
theorem resolve_iff_means (calls : List Call) {context : DeclId} {d : Declaration}
    (hd : (afterCalls calls).declaration? context = some d) :
    ∃ around, (afterCalls calls).names.Around d.name d.package around ∧ ∀ type : WrittenType,
      (∀ tree, (∃ id m', (Edit.resolve context type).apply (afterCalls calls) = (.ok id, m') ∧
          m'.Denotes id tree) ↔
        (afterCalls calls).names.Means (d.name :: around) d.package type tree) ∧
      ((∃ e, ((Edit.resolve context type).apply (afterCalls calls)).1 = .error e) ↔
        ∃ part ∈ type.parts ((afterCalls calls).names.knows (d.name :: around) d.package),
          ∃ e, (afterCalls calls).names.Miscounted (d.name :: around) d.package part e) ∧
      ∀ e, ((Edit.resolve context type).apply (afterCalls calls)).1 = .error e ↔
        (afterCalls calls).names.FirstFault (d.name :: around) d.package
          (type.parts ((afterCalls calls).names.knows (d.name :: around) d.package)) e := by
  have hm := (afterCalls_coherent calls).1
  generalize afterCalls calls = m at hd hm ⊢
  obtain ⟨around, hscopes, haround⟩ := Names.exists_around m.names d.name d.scope
  refine ⟨around, haround, fun type => ?_⟩
  have hmeans : ∀ tree, m.names.resolve d.name d.scope type = some tree ↔
      m.names.Means (d.name :: around) d.package type tree := by
    intro tree
    rw [Names.resolve_eq_some_iff, hscopes]
    rfl
  have herror := fun e => (Edit.reports_resolve context type hd hm).eq_error_iff (e := e)
  rw [hscopes, knows, hscopes] at herror
  refine ⟨fun tree => ?_, ?_, herror⟩
  · exact ((Edit.finds_resolve context type hd).exists_ok_iff hm).trans (hmeans tree)
  · exact (exists_congr herror).trans Names.exists_firstFault_iff

/-- A class with a generic class of the same simple name in its package and in the class around it.
-/
def boxCalls : List Call :=
  [.declare { name := "lib.Box", parameters := ["T"] },
   .declare { name := "lib.Outer", parameters := ["T"] },
   .declare { name := "lib.Outer.Box", package := some "lib", parameters := ["A", "B"] },
   .declare { name := "lib.Outer.Inner", package := some "lib" }]

/-- The text `Box<Missing<Box<T>>,Box<T>>`. -/
def boxType : WrittenType :=
  .named "Box" [.named "Missing" [.named "Box" [.named "T" []]], .named "Box" [.named "T" []]]

/-- Inside `lib.Outer` the name `Box` is that of the member, which has two type parameters.  What is
written inside `Missing` is not looked at. -/
theorem boxes_resolve_iff_means : ∃ d, (afterCalls boxCalls).declaration? ⟨14⟩ = some d ∧
    d.name = "lib.Outer.Inner" ∧ ∃ around,
      (afterCalls boxCalls).names.Around d.name d.package around ∧
        (afterCalls boxCalls).names.FirstFault (d.name :: around) d.package
          (boxType.parts ((afterCalls boxCalls).names.knows (d.name :: around) d.package))
          (.invalidArgumentCount "lib.Outer.Box" 2 1) := by
  obtain ⟨d, hd, hname⟩ : ∃ d, (afterCalls boxCalls).declaration? ⟨14⟩ = some d ∧
      d.name = "lib.Outer.Inner" := Option.map_eq_some_iff.mp (by decide +kernel)
  obtain ⟨around, haround, hresolve⟩ := resolve_iff_means boxCalls hd
  obtain ⟨-, -, herror⟩ := hresolve boxType
  exact ⟨d, hd, hname, around, haround, (herror _).mp (by decide +kernel)⟩

end Model

end ParcelCompanion
