import ParcelCompanion.Model.CanonicalName
import ParcelCompanion.Proofs.Answer
import ParcelCompanion.Proofs.Model.Coherent

/-!
# Every type has a canonical name

A model is grounded when the components of every type stand below it.  Strictly coherent models are.
Then going down from a type ends, and its canonical name does not depend on the bound that is put on
the way, as long as that leaves room for all numbers below the type.
-/

namespace ParcelCompanion.Model

variable {strict : Prop} {m : Model}

/-- The components of every type stand below it. -/
def Grounded (m : Model) : Prop :=
  ∀ id term, m.type? id = some term → ∀ c ∈ term.components, c.index < id.index

/-- In the strict degree nothing is made of types that come later or not at all. -/
lemma Coherent.grounded (h : m.Coherent True) : m.Grounded := by
  intro id term hid
  have hadmissible := h.interned.admissible id term hid
  have hproper : ∀ c, TypeTerm.IsProper (m.types.toList.take id.index) c → c.index < id.index := by
    rintro c ⟨component, hc, -⟩
    obtain ⟨hlt, -⟩ := List.getElem?_eq_some_iff.mp hc
    rw [List.length_take] at hlt
    omega
  cases term with
  | declared decl args =>
    intro c hc
    have hlt := hadmissible.2 c hc
    rw [List.length_take] at hlt
    omega
  | array element =>
    intro c hc
    obtain rfl := List.mem_singleton.mp hc
    exact hproper c (hadmissible trivial)
  | wildcard upper lower => exact fun c hc => hproper c ((hadmissible trivial).2 c hc)
  | _ => exact nofun

/-- The components of a type are there. -/
lemma Grounded.type?_component (h : m.Grounded) {id : TypeId} {term : TypeTerm}
    (hid : m.type? id = some term) {c : TypeId} (hc : c ∈ term.components) :
    ∃ component, m.type? c = some component := by
  have hlt := Nat.lt_trans (h id term hid c hc) (index_lt_of_type? hid)
  exact ⟨m.types[c.index], Array.getElem?_eq_getElem hlt⟩

/-! ### Spelling -/

/-- The canonical name of a type when those of its components are told by `name`. -/
def spell (m : Model) (name : TypeId → Except ModelError String) :
    TypeTerm → Except ModelError String
  | .primitive kind => return kind.keyword
  | .declared decl [] => return (← m.declaration decl).name
  | .declared decl (arg :: args) => do
    let d ← m.declaration decl
    let args ← (arg :: args).mapM name
    return d.name ++ "<" ++ String.intercalate "," args ++ ">"
  | .parameter owner index => return (← m.typeParameter owner index).name
  | .array element => return (← name element) ++ "[]"
  | .wildcard (some upper) _ => return "? extends " ++ (← name upper)
  | .wildcard none (some lower) => return "? super " ++ (← name lower)
  | .wildcard none none => return "?"
  | .unresolved name => return name

/-- A name is spelled out of the names of the components, which are told one level down. -/
lemma nameWithin_succ {id : TypeId} {term : TypeTerm} (hid : m.type? id = some term) (depth : ℕ) :
    m.nameWithin (depth + 1) id = m.spell (m.nameWithin depth) term := by
  rw [nameWithin, type_eq_ok_iff.mpr hid]
  rcases term with _ | ⟨decl, _ | ⟨arg, args⟩⟩ | _ | _ | ⟨_ | _, _ | _⟩ | _ <;> rfl

/-- A type is spelled alike within any depth that tells the names of its components. -/
lemma Coherent.exists_spell (h : m.Coherent strict) {id : TypeId} {term : TypeTerm}
    (hid : m.type? id = some term) {n : ℕ}
    (hcomponents : ∀ c ∈ term.components,
      ∃ name, ∀ depth, n ≤ depth → m.nameWithin depth c = .ok name) :
    ∃ name, ∀ depth, n ≤ depth → m.spell (m.nameWithin depth) term = .ok name := by
  cases term with
  | primitive kind => exact ⟨kind.keyword, fun _ _ => rfl⟩
  | unresolved name => exact ⟨name, fun _ _ => rfl⟩
  | parameter owner index =>
    obtain ⟨parameter, hparameter⟩ := h.typeParameter_of_parameter hid
    refine ⟨parameter.name, fun _ _ => ?_⟩
    rw [spell, hparameter]
    rfl
  | array element =>
    obtain ⟨name, hname⟩ := hcomponents element List.mem_cons_self
    refine ⟨name ++ "[]", fun depth hdepth => ?_⟩
    rw [spell, hname depth hdepth]
    rfl
  | declared decl args =>
    obtain ⟨d, hd⟩ := h.declaration?_of_declared hid
    have hd := declaration_eq_ok_iff.mpr hd
    cases args with
    | nil =>
      refine ⟨d.name, fun _ _ => ?_⟩
      rw [spell, hd]
      rfl
    | cons arg args =>
      obtain ⟨names, hnames⟩ : ∃ names, ∀ depth, n ≤ depth →
          (arg :: args).mapM (m.nameWithin depth) = .ok names :=
        exists_mapM_eq_ok hcomponents
      refine ⟨d.name ++ "<" ++ String.intercalate "," names ++ ">", fun depth hdepth => ?_⟩
      rw [spell, hd, hnames depth hdepth]
      rfl
  | wildcard upper lower =>
    cases upper with
    | some upper =>
      obtain ⟨name, hname⟩ := hcomponents upper List.mem_cons_self
      refine ⟨"? extends " ++ name, fun depth hdepth => ?_⟩
      rw [spell, hname depth hdepth]
      rfl
    | none =>
      cases lower with
      | some lower =>
        obtain ⟨name, hname⟩ := hcomponents lower List.mem_cons_self
        refine ⟨"? super " ++ name, fun depth hdepth => ?_⟩
        rw [spell, hname depth hdepth]
        rfl
      | none => exact ⟨"?", fun _ _ => rfl⟩

/-- Every type has a name, which is found within any depth beyond its number. -/
lemma Coherent.exists_nameWithin (h : m.Coherent strict) (hgrounded : m.Grounded) {id : TypeId}
    {term : TypeTerm} (hid : m.type? id = some term) :
    ∃ name, ∀ depth, id.index < depth → m.nameWithin depth id = .ok name := by
  induction hn : id.index using Nat.strongRecOn generalizing id term with
  | ind n ih =>
    have hcomponents : ∀ c ∈ term.components,
        ∃ name, ∀ depth, n ≤ depth → m.nameWithin depth c = .ok name := by
      intro c hc
      obtain ⟨component, hcomponent⟩ := hgrounded.type?_component hid hc
      have hlt : c.index < n := hn ▸ hgrounded id term hid c hc
      obtain ⟨name, hname⟩ := ih c.index hlt hcomponent rfl
      exact ⟨name, fun depth hdepth => hname depth (Nat.lt_of_lt_of_le hlt hdepth)⟩
    obtain ⟨name, hname⟩ := h.exists_spell hid hcomponents
    refine ⟨name, fun depth hdepth => ?_⟩
    -- One level down, the depth still leaves room for the components.
    obtain ⟨below, rfl⟩ : ∃ below, depth = below + 1 := ⟨depth - 1, by omega⟩
    rw [nameWithin_succ hid]
    exact hname below (by omega)

/-- The canonical name of a type is what any depth beyond its number finds. -/
lemma Coherent.exists_canonicalName (h : m.Coherent strict) (hgrounded : m.Grounded)
    {id : TypeId} {term : TypeTerm} (hid : m.type? id = some term) :
    ∃ name, m.canonicalName id = .ok name ∧
      ∀ depth, id.index < depth → m.nameWithin depth id = .ok name := by
  obtain ⟨name, hname⟩ := h.exists_nameWithin hgrounded hid
  have hlt := index_lt_of_type? hid
  exact ⟨name, hname _ (by omega), hname⟩

end ParcelCompanion.Model
