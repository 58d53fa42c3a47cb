import ParcelCompanion.Proofs.Model.Extends

/-!
# The arena of types

The types of a model form an arena: a list in which each type refers to others by their numbers,
and a table that takes each type back to its number.  `TypeTerm.Admissible` says when a type may be
added to an arena, given what stands there before it.  It comes in two degrees.  The weak degree is
what every step of building a model checks.  The strict degree also holds arrays, wildcards and the
number of type arguments to account, and is what a document gives.

`Interned` states that an arena was made by adding admissible types, each once; adding another one
keeps it so.
-/

namespace ParcelCompanion

namespace TypeTerm

/-- Whether a type is a wildcard. -/
def isWildcard : TypeTerm → Bool
  | .wildcard _ _ => true
  | _ => false

/-- A number stands for a type among the earlier ones that is no wildcard. -/
def IsProper (earlier : List TypeTerm) (id : TypeId) : Prop :=
  ∃ term, earlier[id.index]? = some term ∧ term.isWildcard = false

/-- A type may follow the earlier ones, where `arity` tells the number of type parameters of each
declaration. -/
def Admissible (strict : Prop) (arity : DeclId → Option ℕ) (earlier : List TypeTerm) :
    TypeTerm → Prop
  | .declared decl args =>
    (∃ n, arity decl = some n ∧ (strict → args = [] ∨ args.length = n)) ∧
      ∀ arg ∈ args, arg.index < earlier.length
  | .parameter owner index => ∃ n, arity owner = some n ∧ index < n
  | .array element => strict → IsProper earlier element
  | .wildcard upper lower =>
    strict → (upper = none ∨ lower = none) ∧
      ∀ bound ∈ upper.toList ++ lower.toList, IsProper earlier bound
  | .primitive _ => True
  | .unresolved _ => True

/-- What is admissible stays so when there are more declarations. -/
lemma Admissible.mono {strict : Prop} {arity arity' : DeclId → Option ℕ}
    {earlier : List TypeTerm} {term : TypeTerm}
    (h : term.Admissible strict arity earlier)
    (harity : ∀ decl n, arity decl = some n → arity' decl = some n) :
    term.Admissible strict arity' earlier := by
  cases term with
  | declared decl args =>
    obtain ⟨⟨n, hn, hlength⟩, hargs⟩ := h
    exact ⟨⟨n, harity _ _ hn, hlength⟩, hargs⟩
  | parameter owner index =>
    obtain ⟨n, hn, hindex⟩ := h
    exact ⟨n, harity _ _ hn, hindex⟩
  | _ => exact h

end TypeTerm

namespace Model

variable {strict : Prop} {arity : DeclId → Option ℕ} {m : Model} {term : TypeTerm}

/-- The arena holds admissible types only, each once, and the table knows them all. -/
structure Interned (strict : Prop) (arity : DeclId → Option ℕ) (m : Model) : Prop where
  table : ∀ term id, m.typeIds[term]? = some id ↔ m.type? id = some term
  admissible : ∀ id term, m.type? id = some term →
    term.Admissible strict arity (m.types.toList.take id.index)

/-- An arena stays as it has to be when there are more declarations. -/
lemma Interned.mono {arity' : DeclId → Option ℕ} (h : m.Interned strict arity)
    (harity : ∀ decl n, arity decl = some n → arity' decl = some n) :
    m.Interned strict arity' :=
  ⟨h.table, fun id term hterm => (h.admissible id term hterm).mono harity⟩

/-! ### Interning -/

/-- The model with a type put behind the others. -/
def pushType (m : Model) (term : TypeTerm) : Model :=
  { m with
    types := m.types.push term
    typeIds := m.typeIds.insert term ⟨m.types.size⟩ }

/-- A number of an arena with one more type is an old number or the new one. -/
lemma type?_pushType (m : Model) (term : TypeTerm) (id : TypeId) :
    (m.pushType term).type? id = if id.index = m.types.size then some term else m.type? id :=
  Array.getElem?_push

/-- The table of an arena with one more type takes that type to the new number. -/
lemma typeIds_pushType (m : Model) (term other : TypeTerm) :
    (m.pushType term).typeIds[other]? =
      if term = other then some ⟨m.types.size⟩ else m.typeIds[other]? := by
  change (m.typeIds.insert term ⟨m.types.size⟩)[other]? = _
  rw [Std.TreeMap.getElem?_insert]
  by_cases hother : term = other
  · rw [if_pos hother, if_pos (Std.compare_eq_iff_eq.mpr hother)]
  · rw [if_neg hother, if_neg (Std.compare_eq_iff_eq.not.mpr hother)]

lemma pushType_extends (m : Model) (term : TypeTerm) : m.Extends (m.pushType term) :=
  ⟨by simp [pushType], List.prefix_rfl, List.prefix_rfl⟩

/-- Interning either finds the type or puts it behind the others. -/
lemma intern_cases (h : m.Interned strict arity) (term : TypeTerm) :
    (m.type? (m.intern term).1 = some term ∧ (m.intern term).2 = m) ∨
      (m.typeIds[term]? = none ∧ m.intern term = (⟨m.types.size⟩, m.pushType term)) := by
  unfold intern
  cases hterm : m.typeIds[term]? with
  | some id => exact Or.inl ⟨(h.table term id).mp hterm, rfl⟩
  | none => exact Or.inr ⟨rfl, rfl⟩

/-- Interning touches the arena only. -/
lemma intern_frame (m : Model) (term : TypeTerm) :
    (m.intern term).2.declarations = m.declarations ∧
      (m.intern term).2.declarationIds = m.declarationIds ∧
      (m.intern term).2.elements = m.elements := by
  unfold intern
  cases m.typeIds[term]? <;> exact ⟨rfl, rfl, rfl⟩

/-- A type of the model that interning leaves behind was there before or is the new one. -/
lemma type?_of_intern {id : TypeId} {other : TypeTerm}
    (hid : (m.intern term).2.type? id = some other) :
    m.type? id = some other ∨ (id.index = m.types.size ∧ other = term) := by
  unfold intern at hid
  cases hterm : m.typeIds[term]? with
  | some found => exact Or.inl (by rwa [hterm] at hid)
  | none =>
    rw [hterm] at hid
    have hid : (m.pushType term).type? id = some other := hid
    rw [type?_pushType] at hid
    split at hid
    · next hindex => exact Or.inr ⟨hindex, (Option.some.inj hid).symm⟩
    · exact Or.inl hid

/-- The model left behind by interning extends the model before. -/
lemma intern_extends (m : Model) (term : TypeTerm) : m.Extends (m.intern term).2 := by
  unfold intern
  cases m.typeIds[term]? with
  | some id => exact Extends.refl m
  | none => exact pushType_extends m term

/-- The number that interning answers is that of the type. -/
lemma type?_intern (h : m.Interned strict arity) (term : TypeTerm) :
    (m.intern term).2.type? (m.intern term).1 = some term := by
  rcases intern_cases h term with ⟨hterm, hm⟩ | ⟨-, hm⟩
  · rw [hm, hterm]
  · rw [hm, type?_pushType, if_pos rfl]

/-- The table stays right when a type is added that it does not know. -/
lemma Interned.table_pushType (h : m.Interned strict arity) (hnew : m.typeIds[term]? = none)
    (other : TypeTerm) (id : TypeId) :
    (m.pushType term).typeIds[other]? = some id ↔ (m.pushType term).type? id = some other := by
  rw [typeIds_pushType, type?_pushType]
  by_cases hother : term = other
  · subst hother
    rw [if_pos rfl]
    constructor
    · rintro ⟨⟩
      exact if_pos rfl
    · intro hid
      split at hid
      · next hindex => exact congrArg some (TypeId.eq_of_index_eq hindex.symm)
      · exact nomatch hnew.symm.trans ((h.table term id).mpr hid)
  · rw [if_neg hother, h.table]
    constructor
    · exact fun hid => (if_neg (Nat.ne_of_lt (index_lt_of_type? hid))).trans hid
    · intro hid
      split at hid
      · exact absurd (Option.some.inj hid) hother
      · exact hid

/-- An admissible type that is added comes after all types that it may refer to. -/
lemma Interned.admissible_pushType (h : m.Interned strict arity)
    (hterm : term.Admissible strict arity m.types.toList) {id : TypeId} {other : TypeTerm}
    (hid : (m.pushType term).type? id = some other) :
    other.Admissible strict arity ((m.pushType term).types.toList.take id.index) := by
  have hlist : (m.pushType term).types.toList = m.types.toList ++ [term] := Array.toList_push
  rw [type?_pushType] at hid
  rw [hlist]
  split at hid
  · next hindex =>
    obtain rfl := Option.some.inj hid
    rwa [hindex, ← Array.length_toList, List.take_left]
  · have hlt := index_lt_of_type? hid
    rw [List.take_append_of_le_length (by rw [Array.length_toList]; omega)]
    exact h.admissible id other hid

/-- Interning an admissible type keeps the arena as it has to be. -/
lemma Interned.intern (h : m.Interned strict arity)
    (hterm : term.Admissible strict arity m.types.toList) :
    (m.intern term).2.Interned strict arity := by
  rcases intern_cases h term with ⟨-, hm⟩ | ⟨hnew, hm⟩
  · rwa [hm]
  · rw [hm]
    exact ⟨h.table_pushType hnew, fun _ _ hid => h.admissible_pushType hterm hid⟩

/-! ### Interning several types -/

lemma internAll_cons (m : Model) (term : TypeTerm) (terms : List TypeTerm) :
    m.internAll (term :: terms) =
      ((m.intern term).1 :: ((m.intern term).2.internAll terms).1,
        ((m.intern term).2.internAll terms).2) := rfl

/-- The model left behind by interning several types extends the model before. -/
lemma internAll_extends (m : Model) (terms : List TypeTerm) :
    m.Extends (m.internAll terms).2 := by
  induction terms generalizing m with
  | nil => exact Extends.refl m
  | cons term terms ih => exact (intern_extends m term).trans (ih _)

/-- Interning several types touches the arena only. -/
lemma internAll_frame (m : Model) (terms : List TypeTerm) :
    (m.internAll terms).2.declarations = m.declarations ∧
      (m.internAll terms).2.declarationIds = m.declarationIds ∧
      (m.internAll terms).2.elements = m.elements := by
  induction terms generalizing m with
  | nil => exact ⟨rfl, rfl, rfl⟩
  | cons term terms ih =>
    obtain ⟨hd, hids, he⟩ := intern_frame m term
    obtain ⟨hd', hids', he'⟩ := ih (m.intern term).2
    exact ⟨hd'.trans hd, hids'.trans hids, he'.trans he⟩

/-- Interning types that are admissible anywhere keeps the arena as it has to be and answers with
their numbers. -/
lemma Interned.internAll (h : m.Interned strict arity) {terms : List TypeTerm}
    (hterms : ∀ term ∈ terms, ∀ earlier, term.Admissible strict arity earlier) :
    (m.internAll terms).2.Interned strict arity ∧
      (m.internAll terms).1.map (m.internAll terms).2.type? = terms.map some := by
  induction terms generalizing m with
  | nil => exact ⟨h, rfl⟩
  | cons term terms ih =>
    have hfirst := h.intern (hterms term List.mem_cons_self m.types.toList)
    obtain ⟨hrest, hids⟩ := ih hfirst fun t ht => hterms t (List.mem_cons_of_mem _ ht)
    have hid := (internAll_extends (m.intern term).2 terms).type? (type?_intern h term)
    rw [internAll_cons]
    refine ⟨hrest, ?_⟩
    rw [List.map_cons, List.map_cons, hid, hids]

end Model

end ParcelCompanion
