import ParcelCompanion.Proofs.Model.Finish

/-!
# Numbers, tables and names agree

A model keeps what it knows in several places at once: types in an arena and in a table, qualified
names in declarations and in a table, type parameters in a declaration and in its own type.
`Indexed` says that these agree.  Types are then equal exactly when their numbers are, and it does
not matter whether they are compared by the numbers of their components or down to the leaves.

The main statement `afterCalls_indexed` holds of whatever a sequence of calls has made of the
platform, before and after finishing.
-/

namespace ParcelCompanion.Model

variable {strict : Prop} {m : Model}

/-! ### Structural equality -/

/-- Two types are built alike when they have the same outermost constructor, the same data in it,
and components that are built alike in turn. -/
inductive Alike (m : Model) : TypeId → TypeId → Prop
  | same {a b : TypeId} {term : TypeTerm} (ha : m.type? a = some term)
    (hb : m.type? b = some term) : Alike m a b
  | declared {a b : TypeId} {decl : DeclId} {args args' : List TypeId}
    (ha : m.type? a = some (.declared decl args)) (hb : m.type? b = some (.declared decl args'))
    (hlength : args.length = args'.length)
    (hargs : ∀ (i : ℕ) (c d : TypeId), args[i]? = some c → args'[i]? = some d → Alike m c d) :
    Alike m a b
  | array {a b element element' : TypeId} (ha : m.type? a = some (.array element))
    (hb : m.type? b = some (.array element')) (helement : Alike m element element') : Alike m a b
  | wildcard {a b : TypeId} {upper upper' lower lower' : Option TypeId}
    (ha : m.type? a = some (.wildcard upper lower))
    (hb : m.type? b = some (.wildcard upper' lower'))
    (hsome : upper.isSome = upper'.isSome ∧ lower.isSome = lower'.isSome)
    (hupper : ∀ c ∈ upper, ∀ d ∈ upper', Alike m c d)
    (hlower : ∀ c ∈ lower, ∀ d ∈ lower', Alike m c d) : Alike m a b

/-- A type of the arena has one number. -/
lemma Interned.type?_injective {arity : DeclId → Option ℕ} (h : m.Interned strict arity)
    {a b : TypeId} {term : TypeTerm} (ha : m.type? a = some term) (hb : m.type? b = some term) :
    a = b :=
  Option.some.inj (((h.table term a).mpr ha).symm.trans ((h.table term b).mpr hb))

/-- Bounds that are both there or both missing are equal if they are when they are there. -/
lemma eq_of_isSome_eq {bound bound' : Option TypeId} (hsome : bound.isSome = bound'.isSome)
    (h : ∀ c ∈ bound, ∀ d ∈ bound', c = d) : bound = bound' := by
  cases bound with
  | none => cases bound' with
    | none => rfl
    | some d => exact nomatch hsome
  | some c => cases bound' with
    | none => exact nomatch hsome
    | some d => exact congrArg some (h c rfl d rfl)

/-- Types that are built alike have the same number. -/
lemma Interned.eq_of_alike {arity : DeclId → Option ℕ} (h : m.Interned strict arity)
    {a b : TypeId} (hab : m.Alike a b) : a = b := by
  induction hab with
  | same ha hb => exact h.type?_injective ha hb
  | @declared a b decl args args' ha hb hlength _ ih =>
    have hargs : args = args' := by
      apply List.ext_getElem? fun i => ?_
      cases hc : args[i]? with
      | none =>
        rw [List.getElem?_eq_none_iff, hlength] at hc
        exact (List.getElem?_eq_none hc).symm
      | some c =>
        have hi := (List.getElem?_eq_some_iff.mp hc).1
        have hd := List.getElem?_eq_getElem (hlength ▸ hi)
        rw [hd, ih i c _ hc hd]
    exact h.type?_injective ha (hargs ▸ hb)
  | array ha hb _ ih => exact h.type?_injective ha (ih ▸ hb)
  | wildcard ha hb hsome _ _ ihupper ihlower =>
    rw [← eq_of_isSome_eq hsome.1 ihupper, ← eq_of_isSome_eq hsome.2 ihlower] at hb
    exact h.type?_injective ha hb

/-! ### Agreement -/

/-- The arena, the tables and the declarations of a model say the same. -/
structure Indexed (m : Model) : Prop where
  /-- No type stands in the arena twice. -/
  nodup_types : m.types.toList.Nodup
  /-- The table of types takes each type of the arena to its number, and nothing else. -/
  typeIds : ∀ term id, m.typeIds[term]? = some id ↔ m.type? id = some term
  /-- No two declarations have the same qualified name. -/
  nodup_names : (m.declarations.toList.map Declaration.name).Nodup
  /-- The table of names takes the name of each declaration to its number, and nothing else. -/
  declarationIds : ∀ name id,
    m.declarationIds[name]? = some id ↔ ∃ d, m.declaration? id = some d ∧ d.name = name
  /-- The own type of a declaration applies it to its own type parameters, in order. -/
  selfTypes : ∀ id d, m.declaration? id = some d →
    m.IsSelfType id d.parameters.length d.selfType
  /-- Numbers of types are equal exactly when the types are, and exactly when these are built
  alike. -/
  eq_iff : ∀ a b s t, m.type? a = some s → m.type? b = some t →
    (a = b ↔ s = t) ∧ (a = b ↔ m.Alike a b)

lemma Coherent.nodup_types (h : m.Coherent strict) : m.types.toList.Nodup := by
  refine nodup_of_getElem?_injective fun i j term hi hj => ?_
  have heq := h.interned.type?_injective (a := ⟨i⟩) (b := ⟨j⟩) (type?_eq_some_iff.mpr hi)
    (type?_eq_some_iff.mpr hj)
  exact congrArg TypeId.index heq

lemma Coherent.nodup_names (h : m.Coherent strict) :
    (m.declarations.toList.map Declaration.name).Nodup := by
  refine nodup_of_getElem?_injective fun i j name hi hj => ?_
  rw [List.getElem?_map, Array.getElem?_toList] at hi hj
  obtain ⟨d, hd, hname⟩ := Option.map_eq_some_iff.mp hi
  obtain ⟨e, he, hname'⟩ := Option.map_eq_some_iff.mp hj
  have heq := h.name_injective (a := ⟨i⟩) (b := ⟨j⟩) hd he (hname.trans hname'.symm)
  exact congrArg DeclId.index heq

/-- Coherent models, of either degree, agree with themselves. -/
lemma Coherent.indexed (h : m.Coherent strict) : m.Indexed where
  nodup_types := h.nodup_types
  typeIds := h.interned.table
  nodup_names := h.nodup_names
  declarationIds := h.names
  selfTypes := h.selfTypes
  eq_iff a b s t ha hb := by
    refine ⟨⟨?_, ?_⟩, ⟨?_, h.interned.eq_of_alike⟩⟩
    · rintro rfl
      exact Option.some.inj (ha.symm.trans hb)
    · rintro rfl
      exact h.interned.type?_injective ha hb
    · rintro rfl
      exact .same ha ha

/-- Whatever is called, and whether the calls answer or fail, the places in which a model keeps what
it knows agree.  So they do when the model is finished. -/
theorem afterCalls_indexed (calls : List Call) :
    (afterCalls calls).Indexed ∧ ∀ m, (afterCalls calls).finish = .ok m → m.Indexed := by
  have hcoherent := (afterCalls_coherent calls).1
  exact ⟨hcoherent.indexed, fun m hm => (hcoherent.finish hm).indexed⟩

/-- A generic class that is declared twice, arrays of a type that is not there, which are the same
array, and a written type of which a part is stored before the rest fails. -/
def pairCalls : List Call := [
  .declare { name := "app.Pair", parameters := ["K", "V"] },
  .declare { name := "app.Pair" },
  .array ⟨99⟩,
  .array ⟨99⟩,
  .declared ⟨11⟩ [⟨99⟩],
  .resolveText ⟨11⟩ "Pair<? extends V[], Pair<V>>",
  .addField ⟨"swapped", ⟨13⟩, ⟨11⟩, .none, []⟩]

/-- After `pairCalls`, of which three fail, the model can be finished, and the places in which it
keeps what it knows agree before and after that. -/
theorem pairs_indexed : ∃ m, (afterCalls pairCalls).finish = .ok m ∧
    m.type? ⟨16⟩ = some (.wildcard (some ⟨15⟩) none) ∧
    (afterCalls pairCalls).Indexed ∧ m.Indexed := by
  obtain ⟨m, hfinish, hpart⟩ : ∃ m, (afterCalls pairCalls).finish = .ok m ∧
      m.type? ⟨16⟩ = some (.wildcard (some ⟨15⟩) none) :=
    exists_ok_of_toOption_map (by decide +kernel)
  obtain ⟨hindexed, hfinished⟩ := afterCalls_indexed pairCalls
  exact ⟨m, hfinish, hpart, hindexed, hfinished m hfinish⟩

end ParcelCompanion.Model
