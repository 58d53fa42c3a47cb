import Mathlib.Tactic.Common

/-!
# Answers of computations with effects

What a computation answers may depend on its effects, so that it cannot be told from the computation
alone.  A computation `Yields` a property when all of its answers have it.  Two computations are
`Coupled` by a relation when they have the same effects and then answer what is related.
-/

namespace ParcelCompanion

variable {M : Type → Type} {α β γ : Type} {P : α → Prop}

/-- All answers of a computation have a property: they could carry a proof of it. -/
def Yields [Functor M] (P : α → Prop) (x : M α) : Prop :=
  ∃ y : M { a // P a }, Subtype.val <$> y = x

/-- Two computations have the same effects and related answers: there is one computation of pairs of
related answers, of which the two show one side each. -/
def Coupled [Functor M] (R : α → β → Prop) (x : M α) (y : M β) : Prop :=
  ∃ z : M { p : α × β // R p.1 p.2 }, (fun p => p.1.1) <$> z = x ∧ (fun p => p.1.2) <$> z = y

/-! ### Putting computations together -/

section Lawful

variable [Monad M] [LawfulMonad M] {x : M α}

lemma yields_pure {a : α} (h : P a) : Yields P (pure a : M α) :=
  ⟨pure ⟨a, h⟩, map_pure _ _⟩

/-- Two answers that are made of one are related when the one has a property. -/
lemma Yields.coupled (h : Yields P x) {R : β → γ → Prop} {f : α → β} {g : α → γ}
    (hR : ∀ a, P a → R (f a) (g a)) : Coupled R (f <$> x) (g <$> x) := by
  obtain ⟨y, rfl⟩ := h
  refine ⟨(fun a => ⟨(f a.1, g a.1), hR a.1 a.2⟩) <$> y, ?_, ?_⟩
  · rw [Functor.map_map, Functor.map_map]
  · rw [Functor.map_map, Functor.map_map]

/-- An answer is related to what it is made of when that has a property. -/
lemma Yields.coupled_map (h : Yields P x) {R : β → α → Prop} {f : α → β}
    (hR : ∀ a, P a → R (f a) a) : Coupled R (f <$> x) x := by
  have hcoupled : Coupled R (f <$> x) (id <$> x) := h.coupled hR
  rwa [id_map] at hcoupled

lemma Yields.map (h : Yields P x) {Q : β → Prop} {f : α → β} (hQ : ∀ a, P a → Q (f a)) :
    Yields Q (f <$> x) := by
  obtain ⟨y, rfl⟩ := h
  refine ⟨(fun a => ⟨f a.1, hQ a.1 a.2⟩) <$> y, ?_⟩
  rw [Functor.map_map, Functor.map_map]

lemma Yields.mono (h : Yields P x) {Q : α → Prop} (hQ : ∀ a, P a → Q a) : Yields Q x := by
  have hmap : Yields Q (id <$> x) := h.map hQ
  rwa [id_map] at hmap

/-- One answer after the other has a property each. -/
lemma Yields.pair (hx : Yields P x) {Q : β → Prop} {y : M β} (hy : Yields Q y) :
    Yields (fun p : α × β => P p.1 ∧ Q p.2) (do
      let a ← x
      let b ← y
      return (a, b)) := by
  obtain ⟨x, rfl⟩ := hx
  obtain ⟨y, rfl⟩ := hy
  refine ⟨do
    let a ← x
    let b ← y
    return ⟨(a.1, b.1), a.2, b.2⟩, ?_⟩
  simp

/-- Computations over the members of a list have as many answers as there are members. -/
lemma yields_mapM_length (f : α → M β) (l : List α) :
    Yields (fun bs => bs.length = l.length) (l.mapM f) := by
  induction l with
  | nil => exact yields_pure rfl
  | cons a l ih =>
    obtain ⟨y, hy⟩ := ih
    refine ⟨do
      let b ← f a
      let bs ← y
      return ⟨b :: bs.1, congrArg (· + 1) bs.2⟩, ?_⟩
    rw [List.mapM_cons, ← hy]
    simp

/-- What is made of each answer over a list can be made of all answers at the end. -/
lemma mapM_map_eq (f : β → γ) (g : α → M β) (l : List α) :
    l.mapM (fun a => f <$> g a) = List.map f <$> l.mapM g := by
  induction l with
  | nil => simp
  | cons a l ih => simp [List.mapM_cons, ih]

end Lawful

/-! ### Computations over a state -/

section State

variable {σ : Type} {x : StateM σ α} {y : StateM σ β}

/-- Whatever the state is, the answer has the property. -/
lemma Yields.run (h : Yields P x) (s : σ) : P (StateT.run x s).1 := by
  obtain ⟨z, rfl⟩ := h
  exact (StateT.run z s).1.2

/-- Whatever the state is, the answers are related and the state is left the same. -/
lemma Coupled.run {R : α → β → Prop} (h : Coupled R x y) (s : σ) :
    R (StateT.run x s).1 (StateT.run y s).1 ∧ (StateT.run x s).2 = (StateT.run y s).2 := by
  obtain ⟨z, rfl, rfl⟩ := h
  exact ⟨(StateT.run z s).1.2, rfl⟩

end State

end ParcelCompanion
