import ParcelCompanion.Proofs.Document.Build
import ParcelCompanion.Proofs.Edit.Completion
import ParcelCompanion.Proofs.Written.Proper

/-!
# Unresolved types are not spelled like declarations

When the types of a document are resolved, all of its declarations are known by name.  A name that
is stored in an unresolved type was read from a text, was looked up and was not found, and it still
means nothing in the finished model.  Only together with type arguments may the name be a keyword,
or the text be spelled like a declaration.
-/

namespace ParcelCompanion

open Edit Model

namespace Model

variable {m m' : Model} {p : TypeTerm → Prop}

/-! ### Conditions on all types -/

/-- All types of the model meet a condition. -/
def AllTypes (m : Model) (p : TypeTerm → Prop) : Prop :=
  ∀ id term, m.type? id = some term → p term

lemma AllTypes.of_types (h : m.AllTypes p) (htypes : m'.types = m.types) : m'.AllTypes p := by
  intro id term hid
  rw [type?, htypes] at hid
  exact h id term hid

lemma AllTypes.intern (h : m.AllTypes p) {term : TypeTerm} (hterm : p term) :
    (m.intern term).2.AllTypes p := by
  intro id other hid
  rcases type?_of_intern hid with hold | ⟨-, rfl⟩
  · exact h id other hold
  · exact hterm

lemma AllTypes.internAll (h : m.AllTypes p) {terms : List TypeTerm}
    (hterms : ∀ term ∈ terms, p term) : (m.internAll terms).2.AllTypes p := by
  induction terms generalizing m with
  | nil => exact h
  | cons term terms ih =>
    obtain ⟨hterm, hterms⟩ := List.forall_mem_cons.mp hterms
    exact ih (h.intern hterm) hterms

/-! ### Unresolved types -/

/-- The text is that of a proper written type.  Its name is no keyword, at least when it stands
alone, and means no declaration, neither as it is nor in `java.lang`. -/
def Unknown (m : Model) (text : String) : Prop :=
  ∃ name args, (WrittenType.named name args).text = text ∧ (WrittenType.named name args).IsProper ∧
    (args = [] → Primitive.ofKeyword? name = none) ∧ m.lookup name = none ∧
      m.lookup (Dotted.member "java.lang" name) = none

/-- An unresolved type has a text that is unknown. -/
def StaysUnknown (m : Model) : TypeTerm → Prop
  | .unresolved text => m.Unknown text
  | _ => True

/-- The text of an unresolved type, unless it has type arguments in it, is not the name of a
declaration. -/
def SetsApart (m : Model) : TypeTerm → Prop
  | .unresolved text => '<' ∉ text.toList → m.lookup text = none
  | _ => True

/-- No unresolved type of the model is spelled like a declaration of it. -/
def Apart (m : Model) : Prop :=
  m.AllTypes m.SetsApart

/-- An unknown text without arguments is an unknown name. -/
lemma Unknown.lookup_eq_none {text : String} (h : m.Unknown text) (hplain : '<' ∉ text.toList) :
    m.lookup text = none := by
  obtain ⟨name, args, rfl, -, -, hname, -⟩ := h
  cases args with
  | nil => rwa [WrittenType.text_named_nil]
  | cons arg args =>
    rw [WrittenType.text_named_cons] at hplain
    simp at hplain

/-- Where all unresolved types are unknown, none is spelled like a declaration. -/
lemma apart_of_staysUnknown (h : m.AllTypes m.StaysUnknown) : m.Apart := by
  intro id term hid
  have hterm := h id term hid
  cases term with
  | unresolved text => exact Unknown.lookup_eq_none hterm
  | _ => exact trivial

/-- Types that are not unresolved do not matter. -/
lemma staysUnknown_of_ne {term : TypeTerm} (hterm : ∀ text, term ≠ .unresolved text) :
    m.StaysUnknown term := by
  cases term with
  | unresolved text => exact absurd rfl (hterm text)
  | _ => exact trivial

lemma staysUnknown_congr (hnames : m'.declarationIds = m.declarationIds) :
    m'.StaysUnknown = m.StaysUnknown := by
  funext term
  cases term with
  | unresolved text => simp only [StaysUnknown, Unknown, lookup, hnames]
  | _ => rfl

/-- A name that was read and means no declaration is unknown, alone as well as with arguments. -/
lemma unknown_of_findDeclaration {context : DeclId} {name : String} {args : List WrittenType}
    (hproper : (WrittenType.named name args).IsProper)
    (hkeyword : args = [] → Primitive.ofKeyword? name = none)
    (h : m.findDeclaration context name = .ok none) :
    m.Unknown (WrittenType.named name args).text := by
  obtain ⟨candidates, hcandidates, hfound⟩ := bind_eq_ok_iff.mp h
  have hnone := List.findSome?_eq_none_iff.mp (pure_eq_ok_iff.mp hfound)
  obtain ⟨d, -, hcandidates⟩ := bind_eq_ok_iff.mp hcandidates
  obtain ⟨scopes, -, hcandidates⟩ := bind_eq_ok_iff.mp hcandidates
  rw [← pure_eq_ok_iff.mp hcandidates] at hnone
  exact ⟨name, args, rfl, hproper, hkeyword, hnone name (by simp), hnone _ (by simp)⟩

/-! ### Declaring -/

/-- The model holds no unresolved type. -/
def HasNoUnresolved (m : Model) : Prop :=
  m.AllTypes fun term => ∀ text, term ≠ .unresolved text

lemma HasNoUnresolved.staysUnknown (h : m.HasNoUnresolved) : m.AllTypes m.StaysUnknown :=
  fun id term hid => staysUnknown_of_ne (h id term hid)

/-- A declaration brings along its own type and its type parameters only. -/
lemma HasNoUnresolved.insertDeclaration (h : m.HasNoUnresolved) (name package : String)
    (kind : DeclKind) (modifiers : Modifiers) (parameters : List String) :
    (m.insertDeclaration name package kind modifiers parameters).2.HasNoUnresolved := by
  rw [insertDeclaration_eq]
  have hself : (m.internSelfType ⟨m.declarations.size⟩ parameters.length).2.HasNoUnresolved := by
    refine AllTypes.intern (AllTypes.internAll h fun term hterm => ?_) nofun
    obtain ⟨i, -, rfl⟩ := List.mem_map.mp hterm
    exact nofun
  exact AllTypes.of_types hself rfl

lemma hasNoUnresolved_platform : platform.HasNoUnresolved := by
  have hall : ∀ term ∈ platform.types.toList, ∀ text, term ≠ .unresolved text := by
    have hterms : platform.types.toList.all fun term =>
        match term with
        | .unresolved _ => false
        | _ => true := by decide +kernel
    rintro _ hterm text rfl
    exact nomatch List.all_eq_true.mp hterms _ hterm
  intro id term hid
  exact hall term (List.mem_of_getElem? (type?_eq_some_iff.mp hid))

end Model

namespace Edit

variable {m : Model}

/-- Declaring everything stores no unresolved type. -/
lemma ensures_hasNoUnresolved (h : m.HasNoUnresolved) (entries : List DeclarationEntry) :
    (entries.mapM fun entry => declare entry.header).Ensures m
      (fun _ m' => m'.HasNoUnresolved) fun _ _ => True := by
  induction entries generalizing m with
  | nil => exact (ensures_pure _).mpr h
  | cons entry entries ih =>
    rw [List.mapM_cons, ensures_bind]
    refine ensures_declare (fun _ _ => ?_) fun _ => trivial
    rw [ensures_bind]
    exact (ih (h.insertDeclaration _ _ _ _ _)).mono (fun _ _ h' => (ensures_pure _).mpr h')
      fun _ _ => id

end Edit

/-! ### Completing -/

/-- Two models know the same names, and the unresolved types of the second one are unknown if those
of the first one are. -/
def Model.KeepsUnknown (m m' : Model) : Prop :=
  m'.declarationIds = m.declarationIds ∧ (m.AllTypes m.StaysUnknown → m'.AllTypes m'.StaysUnknown)

namespace Model.KeepsUnknown

variable {m m' m'' : Model}

protected lemma trans (h : KeepsUnknown m m') (h' : KeepsUnknown m' m'') : KeepsUnknown m m'' :=
  ⟨h'.1.trans h.1, h'.2 ∘ h.2⟩

lemma of_types (hnames : m'.declarationIds = m.declarationIds) (htypes : m'.types = m.types) :
    KeepsUnknown m m' := by
  refine ⟨hnames, fun h => ?_⟩
  rw [staysUnknown_congr hnames]
  exact AllTypes.of_types h htypes

lemma intern {term : TypeTerm} (hterm : m.StaysUnknown term) :
    KeepsUnknown m (m.intern term).2 := by
  have hnames := (intern_frame m term).2.1
  refine ⟨hnames, fun h => ?_⟩
  rw [staysUnknown_congr hnames]
  exact AllTypes.intern h hterm

/-- Completing a declaration stores unknown texts only. -/
lemma follows (decl : DeclId) : Follows WrittenType.IsProper KeepsUnknown decl where
  inherited := WrittenType.inherited_isProper
  refl _ := ⟨rfl, id⟩
  trans _ _ _ := KeepsUnknown.trans
  intern _ _ hterm := intern (staysUnknown_of_ne hterm)
  unresolved _ _ _ hproper hkeyword hfound :=
    intern (unknown_of_findDeclaration hproper hkeyword hfound)
  modify _ _ _ := of_types rfl rfl
  insert _ _ _ := of_types rfl rfl

end Model.KeepsUnknown

namespace Document

variable {document : Document} {m : Model}

/-- Registering a document stores unknown texts only. -/
lemma ensures_register_staysUnknown (document : Document) :
    document.register.Ensures platform (fun _ m => m.AllTypes m.StaysUnknown) fun _ _ => True := by
  rw [register, ensures_bind]
  refine (ensures_hasNoUnresolved hasNoUnresolved_platform _).mono ?_ fun _ _ => id
  intro ids m hm
  -- It does not matter here which declaration is completed.
  refine Ensures.mono (leads_forM (KeepsUnknown.follows object) fun pair _ _ => ?_)
    (fun _ _ h => h.2 hm.staysUnknown) fun _ _ _ => trivial
  exact leads_complete (KeepsUnknown.follows pair.2) pair.1

/-- In the model of a document, unresolved types have unknown texts. -/
lemma staysUnknown_of_build (h : document.build = .ok m) : m.AllTypes m.StaysUnknown := by
  obtain ⟨registered, hregister, hfinish⟩ := exists_of_build h
  have hensures := document.ensures_register_staysUnknown
  unfold Ensures at hensures
  rw [hregister] at hensures
  have hredeclares := redeclares_of_finish hfinish
  exact (KeepsUnknown.of_types hredeclares.declarationIds hredeclares.types).2 hensures

/-- In the model of a document, no unresolved type is spelled like a declaration. -/
lemma apart_of_build (h : document.build = .ok m) : m.Apart :=
  apart_of_staysUnknown (staysUnknown_of_build h)

end Document

end ParcelCompanion
