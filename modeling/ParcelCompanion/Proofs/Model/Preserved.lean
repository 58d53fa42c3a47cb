import ParcelCompanion.Proofs.Model.CanonicalName
import ParcelCompanion.Proofs.Model.Finish

/-!
# Numbers do not change their meaning

What a number of a model under construction stands for, it stands for after every further call and
in the finished model.  A call that fails is no exception, although it may have stored types before
it failed.

Canonical names are the delicate part, since they are spelled out of types, declarations and type
parameters all the way down.  A larger model allows more steps on that way, and a name that was
found within fewer steps is found again.
-/

namespace ParcelCompanion.Model

variable {m m' m'' : Model}

/-! ### Spelling in a larger model -/

lemma Extends.type (h : m.Extends m') {id : TypeId} {term : TypeTerm}
    (hid : m.type id = .ok term) : m'.type id = .ok term :=
  type_eq_ok_iff.mpr (h.type? (type_eq_ok_iff.mp hid))

/-- A type parameter keeps its name, though it may come by bounds. -/
lemma Extends.typeParameter (h : m.Extends m') {owner : DeclId} {index : ℕ}
    {parameter : TypeParameter} (hp : m.typeParameter owner index = .ok parameter) :
    ∃ parameter', m'.typeParameter owner index = .ok parameter' ∧
      parameter'.name = parameter.name := by
  obtain ⟨d, hd, hparameter⟩ := typeParameter_eq_ok_iff.mp hp
  obtain ⟨d', hd', hbare⟩ := h.declaration? hd
  obtain ⟨parameter', hparameter', hname⟩ :=
    Declaration.exists_parameter_of_bare hbare.symm hparameter
  exact ⟨parameter', typeParameter_eq_ok_iff.mpr ⟨d', hd', hparameter'⟩, hname⟩

/-- A type is spelled in a larger model as in a smaller one, if its components are. -/
lemma Extends.spell (h : m.Extends m') {name name' : TypeId → Except ModelError String}
    (hname : ∀ c s, name c = .ok s → name' c = .ok s) {term : TypeTerm} {s : String}
    (hs : m.spell name term = .ok s) : m'.spell name' term = .ok s := by
  have hdeclaration : ∀ decl d, m.declaration decl = .ok d →
      ∃ d', m'.declaration decl = .ok d' ∧ d'.name = d.name := by
    intro decl d hd
    obtain ⟨d', hd', hbare⟩ := h.declaration? (declaration_eq_ok_iff.mp hd)
    exact ⟨d', declaration_eq_ok_iff.mpr hd', Declaration.name_eq_of_bare hbare⟩
  rcases term with kind | ⟨decl, _ | ⟨arg, args⟩⟩ | ⟨owner, index⟩ | element |
    ⟨_ | upper, _ | lower⟩ | text
  case primitive | unresolved | wildcard.none.none => exact hs
  case declared.nil =>
    simp only [Model.spell, bind_eq_ok_iff, pure_eq_ok_iff] at hs ⊢
    obtain ⟨d, hd, rfl⟩ := hs
    exact hdeclaration decl d hd
  case declared.cons =>
    simp only [Model.spell, bind_eq_ok_iff, pure_eq_ok_iff] at hs ⊢
    obtain ⟨d, hd, names, hnames, rfl⟩ := hs
    obtain ⟨d', hd', heq⟩ := hdeclaration decl d hd
    refine ⟨d', hd', names, ?_, by rw [heq]⟩
    rw [mapM_eq_ok_iff] at hnames ⊢
    exact hnames.imp hname
  case parameter =>
    simp only [Model.spell, bind_eq_ok_iff, pure_eq_ok_iff] at hs ⊢
    obtain ⟨parameter, hparameter, rfl⟩ := hs
    exact h.typeParameter hparameter
  all_goals
    simp only [Model.spell, bind_eq_ok_iff, pure_eq_ok_iff] at hs ⊢
    obtain ⟨component, hcomponent, rfl⟩ := hs
    exact ⟨component, hname _ _ hcomponent, rfl⟩

/-- A name that is found within some depth is found in a larger model, and within any greater
depth. -/
lemma Extends.nameWithin (h : m.Extends m') {depth depth' : ℕ} (hdepth : depth ≤ depth')
    {id : TypeId} {name : String} (hname : m.nameWithin depth id = .ok name) :
    m'.nameWithin depth' id = .ok name := by
  induction depth generalizing depth' id name with
  | zero => exact nomatch hname
  | succ depth ih =>
    obtain ⟨below, rfl⟩ : ∃ below, depth' = below + 1 := ⟨depth' - 1, by omega⟩
    obtain ⟨term, hterm⟩ : ∃ term, m.type id = .ok term := by
      rw [Model.nameWithin] at hname
      obtain ⟨term, hterm, -⟩ := bind_eq_ok_iff.mp hname
      exact ⟨term, hterm⟩
    rw [nameWithin_succ (type_eq_ok_iff.mp hterm)] at hname
    rw [nameWithin_succ (type_eq_ok_iff.mp (h.type hterm))]
    exact h.spell (fun c s hs => ih (by omega) hs) hname

/-! ### Preservation -/

/-- Whatever a number stands for in `m`, it stands for in `m'`. -/
structure Preserves (m m' : Model) : Prop where
  /-- The number of a type goes on to stand for this type. -/
  type : ∀ id term, m.type id = .ok term → m'.type id = .ok term
  /-- The number of a declaration goes on to stand for a declaration that is the same but for what
  it refers to. -/
  declaration : ∀ id d, m.declaration id = .ok d → ∃ d', m'.declaration id = .ok d' ∧
    d'.name = d.name ∧ d'.package = d.package ∧ d'.kind = d.kind ∧ d'.modifiers = d.modifiers ∧
      d'.parameters.map TypeParameter.name = d.parameters.map TypeParameter.name ∧
        d'.selfType = d.selfType
  /-- The number of an element goes on to stand for this field. -/
  element : ∀ id field, m.element id = .ok field → m'.element id = .ok field
  /-- A canonical name does not change. -/
  canonicalName : ∀ id name, m.canonicalName id = .ok name → m'.canonicalName id = .ok name

/-- Models preserve what the models hold which they extend. -/
lemma Extends.preserves (h : m.Extends m') : m.Preserves m' where
  type _ _ := h.type
  declaration id d hd := by
    obtain ⟨d', hd', hbare⟩ := h.declaration? (declaration_eq_ok_iff.mp hd)
    have hscope := Declaration.parameterNames_eq_of_bare hbare
    obtain ⟨name, package, kind, modifiers, _, _, _, selfType⟩ := d
    simp only [Declaration.bare, Declaration.mk.injEq] at hbare
    obtain ⟨hname, hpackage, hkind, hmodifiers, -, -, -, hself⟩ := hbare
    exact ⟨d', declaration_eq_ok_iff.mpr hd', hname, hpackage, hkind, hmodifiers, hscope, hself⟩
  element _ _ := h.element
  canonicalName id name hname := by
    have hsize : m.types.size ≤ m'.types.size := by
      simpa only [Array.length_toList] using h.types.length_le
    exact h.nameWithin (Nat.succ_le_succ hsize) hname

/-- Whatever has been called, and whatever is called afterwards, all numbers go on to stand for what
they stood for, and canonical names stay what they were.  Finishing does not change that. -/
theorem afterCalls_preserves (calls more : List Call) :
    (afterCalls calls).Preserves (afterCalls (calls ++ more)) ∧
      ∀ m, (afterCalls (calls ++ more)).finish = .ok m → (afterCalls calls).Preserves m := by
  have hext : (afterCalls calls).Extends (afterCalls (calls ++ more)) := by
    rw [afterCalls, afterCalls, List.foldl_append]
    exact (Call.foldl_run_coherent (afterCalls_coherent calls).1 more).2
  refine ⟨hext.preserves, fun m hm => ?_⟩
  exact (hext.trans (redeclares_of_finish hm).toExtends).preserves

/-- A generic class without a superclass, and an array of it applied to its own type parameter. -/
def cellCalls : List Call := [
  .declare { name := "app.Cell", parameters := ["T"] },
  .resolveText ⟨11⟩ "Cell<T>[]"]

/-- A bound and a field, a written type that is stored in part before the rest fails, and a name
that is taken. -/
def moreCellCalls : List Call := [
  .setBounds ⟨11⟩ 0 [⟨12⟩],
  .addField ⟨"rest", ⟨13⟩, ⟨11⟩, .none, []⟩,
  .resolveText ⟨11⟩ "Cell<Cell<T[]>, T>",
  .declare { name := "app.Cell" }]

/-- The array of `app.Cell<T>` keeps its canonical name while `T` comes by a bound and `app.Cell` by
a superclass. -/
theorem cells_preserved : ∃ m, (afterCalls (cellCalls ++ moreCellCalls)).finish = .ok m ∧
    (afterCalls cellCalls).canonicalName ⟨13⟩ = .ok "app.Cell<T>[]" ∧
    (m.declaration? ⟨11⟩).map Declaration.supertypes = some [⟨0⟩] ∧
    (afterCalls cellCalls).Preserves m ∧ m.canonicalName ⟨13⟩ = .ok "app.Cell<T>[]" := by
  obtain ⟨m, hfinish, hsuper⟩ : ∃ m, (afterCalls (cellCalls ++ moreCellCalls)).finish = .ok m ∧
      (m.declaration? ⟨11⟩).map Declaration.supertypes = some [⟨0⟩] :=
    exists_ok_of_toOption_map (by decide +kernel)
  have hname : (afterCalls cellCalls).canonicalName ⟨13⟩ = .ok "app.Cell<T>[]" := by
    decide +kernel
  have hpreserves := (afterCalls_preserves cellCalls moreCellCalls).2 m hfinish
  exact ⟨m, hfinish, hname, hsuper, hpreserves, hpreserves.canonicalName _ _ hname⟩

end ParcelCompanion.Model
