import Mathlib.Data.List.Dedup
import Mathlib.Data.List.Induction
import Mathlib.Tactic.Common

/-!
# Positions in lists

What stands at the positions of a list after something is put at its end, after one member is
changed, before and behind a boundary, and after repetitions are removed.
-/

namespace ParcelCompanion

variable {α β : Type*}

/-- What a list holds at a position, every list that extends it holds there too. -/
lemma getElem?_eq_some_of_prefix {l l' : List α} (h : l <+: l') {i : ℕ} {a : α}
    (ha : l[i]? = some a) : l'[i]? = some a := by
  obtain ⟨hi, rfl⟩ := List.getElem?_eq_some_iff.mp ha
  exact List.prefix_iff_getElem?.mp h i hi

/-- A list with one more member holds what it held before, and the new member at the end. -/
lemma getElem?_concat_eq_some_iff {l : List α} {a b : α} {i : ℕ} :
    (l ++ [a])[i]? = some b ↔ l[i]? = some b ∨ i = l.length ∧ a = b := by
  rcases Nat.lt_trichotomy i l.length with hlt | rfl | hgt
  · simp [List.getElem?_append_left hlt, Nat.ne_of_lt hlt]
  · simp
  · have hnone : (l ++ [a])[i]? = none := by
      rw [List.getElem?_eq_none_iff, List.length_append, List.length_singleton]
      omega
    simp [hnone, List.getElem?_eq_none (Nat.le_of_lt hgt), Nat.ne_of_gt hgt]

/-- A list that holds nothing at two positions has no repetitions. -/
lemma nodup_of_getElem?_injective {l : List α}
    (h : ∀ (i j : ℕ) (a : α), l[i]? = some a → l[j]? = some a → i = j) : l.Nodup := by
  refine List.pairwise_iff_getElem.mpr fun i j hi hj hij heq => ?_
  have hji := h i j l[j] (heq ▸ List.getElem?_eq_getElem hi) (List.getElem?_eq_getElem hj)
  exact Nat.ne_of_lt hij hji

/-- A change of one member does not show where it is not looked at. -/
lemma map_modify_eq_map {change : α → α} {f : α → β} (h : ∀ a, f (change a) = f a) (l : List α)
    (i : ℕ) : (l.modify i change).map f = l.map f := by
  apply List.ext_getElem?
  intro j
  rw [List.getElem?_map, List.getElem?_map, List.getElem?_modify]
  cases l[j]? with
  | none => rfl
  | some a => by_cases hi : i = j <;> simp [hi, h]

/-- The member behind the first `l.length` ones is changed in its place. -/
lemma modify_length_append_cons (change : α → α) (l : List α) (a : α) (rest : List α) :
    (l ++ a :: rest).modify l.length change = l ++ change a :: rest := by
  induction l with
  | nil => rfl
  | cons b l ih => rw [List.cons_append, List.length_cons, List.modify_succ_cons, ih,
      List.cons_append]

/-- The members before the first occurrence of `a` are those that are taken while they are not
`a`. -/
lemma takeWhile_bne_append_cons [DecidableEq α] {l rest : List α} {a : α} (ha : a ∉ l) :
    (l ++ a :: rest).takeWhile (· != a) = l := by
  rw [List.takeWhile_append_of_pos, List.takeWhile_cons_of_neg, List.append_nil]
  · simp
  · intro b hb
    simpa using fun heq : b = a => ha (heq ▸ hb)

/-- A run of members with a property ends before the first member without it. -/
lemma takeWhile_append_of_boundary {p : α → Bool} {l rest : List α} (hl : ∀ a ∈ l, p a = true)
    (hrest : ∀ a ∈ rest.head?, p a = false) : (l ++ rest).takeWhile p = l := by
  rw [List.takeWhile_append_of_pos hl]
  cases rest with
  | nil => simp
  | cons a rest => simp [hrest a rfl]

/-- Behind a run of members with a property comes the first member without it. -/
lemma dropWhile_append_of_boundary {p : α → Bool} {l rest : List α} (hl : ∀ a ∈ l, p a = true)
    (hrest : ∀ a ∈ rest.head?, p a = false) : (l ++ rest).dropWhile p = rest := by
  rw [List.dropWhile_append_of_pos hl]
  cases rest with
  | nil => rfl
  | cons a rest => simp [hrest a rfl]

/-- Every list is a run of members with a property and a rest that starts with none of them. -/
lemma exists_run (p : α → Bool) (l : List α) :
    ∃ run rest, l = run ++ rest ∧ (∀ a ∈ run, p a = true) ∧ ∀ a ∈ rest.head?, p a = false := by
  refine ⟨l.takeWhile p, l.dropWhile p, List.takeWhile_append_dropWhile.symm,
    List.all_eq_true.mp List.all_takeWhile, fun a ha => ?_⟩
  have hhead := List.head?_dropWhile_not p l
  rwa [ha] at hhead

/-- The pieces between separators are made of the members of the list, without separators. -/
lemma of_mem_splitOn [DecidableEq α] {a : α} {l piece : List α} (h : piece ∈ l.splitOn a) :
    a ∉ piece ∧ piece ⊆ l := by
  induction l generalizing piece with
  | nil =>
    obtain rfl := List.mem_singleton.mp h
    exact ⟨List.not_mem_nil, List.nil_subset _⟩
  | cons c l ih =>
    rw [List.splitOn_cons_eq_if_modifyHead] at h
    by_cases hc : c = a
    · rw [if_pos (beq_iff_eq.mpr hc)] at h
      rcases List.mem_cons.mp h with rfl | hrest
      · exact ⟨List.not_mem_nil, List.nil_subset _⟩
      · exact ⟨(ih hrest).1, List.subset_cons_of_subset c (ih hrest).2⟩
    · rw [if_neg (by simpa using hc)] at h
      obtain ⟨first, rest, hsplit⟩ := List.exists_cons_of_ne_nil (List.splitOn_ne_nil a l)
      rw [hsplit] at h ih
      rcases List.mem_cons.mp h with rfl | hrest
      · obtain ⟨hfirst, hsub⟩ := ih List.mem_cons_self
        exact ⟨List.not_mem_cons_of_ne_of_not_mem (Ne.symm hc) hfirst, List.cons_subset_cons c hsub⟩
      · obtain ⟨hpiece, hsub⟩ := ih (List.mem_cons_of_mem _ hrest)
        exact ⟨hpiece, List.subset_cons_of_subset c hsub⟩

/-- A member that is new stays at the end when repetitions are removed, and any other goes. -/
lemma eraseDups_concat [DecidableEq α] (l : List α) (a : α) :
    (l ++ [a]).eraseDups = if a ∈ l then l.eraseDups else l.eraseDups ++ [a] := by
  rw [List.eraseDups_append]
  by_cases ha : a ∈ l <;> simp [List.removeAll, List.eraseDups_cons, ha]

/-- Repetitions can be removed separately from lists without common members. -/
lemma eraseDups_append_of_disjoint [DecidableEq α] {l l' : List α} (h : l.Disjoint l') :
    (l ++ l').eraseDups = l.eraseDups ++ l'.eraseDups := by
  have hleft : l'.removeAll l = l' := List.filter_eq_self.mpr fun a ha => by
    simpa using fun hmem => h hmem ha
  rw [List.eraseDups_append, hleft]

/-- Nothing is repeated when repetitions are removed. -/
lemma nodup_eraseDups [DecidableEq α] (l : List α) : l.eraseDups.Nodup := by
  induction l using List.reverseRecOn with
  | nil => exact List.nodup_nil
  | append_singleton l a ih =>
    rw [eraseDups_concat]
    split
    · exact ih
    · next ha => exact List.concat_eq_append ▸ ih.concat (mt List.mem_eraseDups.mp ha)

/-- Removing repetitions has the same result, up to the order, whether the first or the last
occurrence of a member stays. -/
lemma eraseDups_perm_dedup [DecidableEq α] (l : List α) : l.eraseDups.Perm l.dedup :=
  (List.perm_ext_iff_of_nodup (nodup_eraseDups l) l.nodup_dedup).mpr fun a => by simp

/-- Members that each have a partner have them in order. -/
lemma exists_forall₂ {R : α → β → Prop} {l : List α} (h : ∀ a ∈ l, ∃ b, R a b) :
    ∃ l', List.Forall₂ R l l' := by
  induction l with
  | nil => exact ⟨[], .nil⟩
  | cons a l ih =>
    obtain ⟨⟨b, hb⟩, hl⟩ := List.forall_mem_cons.mp h
    obtain ⟨l', hl'⟩ := ih hl
    exact ⟨b :: l', .cons hb hl'⟩

/-- Partners that may be missing are a list of partners. -/
lemma forall₂_toList_of_rel {R : α → β → Prop} {a? : Option α} {b? : Option β}
    (h : Option.Rel R a? b?) : List.Forall₂ R a?.toList b?.toList := by
  cases h with
  | some hab => exact .cons hab .nil
  | none => exact .nil

/-- Of two partners that may be missing, either both are missing or none. -/
lemma eq_none_iff_of_rel {R : α → β → Prop} {a? : Option α} {b? : Option β}
    (h : Option.Rel R a? b?) : a? = none ↔ b? = none := by
  cases h <;> simp

/-- A partner of something that is there is there. -/
lemma exists_of_rel_some {R : α → β → Prop} {a? : Option α} {b : β}
    (h : Option.Rel R a? (some b)) : ∃ a, a? = some a ∧ R a b := by
  cases h with
  | some hab => exact ⟨_, rfl, hab⟩

/-- A member of one of two lists of partners has a partner in the other. -/
lemma exists_mem_of_forall₂ {R : α → β → Prop} {l : List α} {l' : List β}
    (h : List.Forall₂ R l l') {a : α} (ha : a ∈ l) : ∃ b ∈ l', R a b := by
  induction h with
  | nil => exact nomatch ha
  | cons hab _ ih =>
    rcases List.mem_cons.mp ha with rfl | ha
    · exact ⟨_, List.mem_cons_self, hab⟩
    · obtain ⟨b, hb, hab⟩ := ih ha
      exact ⟨b, List.mem_cons_of_mem _ hb, hab⟩

/-- Partners stand at the same position. -/
lemma getElem?_of_forall₂ {R : α → β → Prop} {l : List α} {l' : List β}
    (h : List.Forall₂ R l l') {i : ℕ} {a : α} (ha : l[i]? = some a) :
    ∃ b, l'[i]? = some b ∧ R a b := by
  induction h generalizing i with
  | nil => exact nomatch ha
  | cons hab _ ih =>
    cases i with
    | zero =>
      obtain rfl := Option.some.inj ha
      exact ⟨_, rfl, hab⟩
    | succ i => exact ih ha

/-- Partners that are found one by one are found for the whole list. -/
lemma mapM_eq_some_iff {f : α → Option β} {l : List α} {l' : List β} :
    l.mapM f = some l' ↔ List.Forall₂ (fun a b => f a = some b) l l' := by
  induction l generalizing l' with
  | nil => simp [eq_comm]
  | cons a l ih =>
    simp only [List.mapM_cons, Option.bind_eq_bind, Option.bind_eq_some_iff, Option.pure_def,
      Option.some.injEq, ih, List.forall₂_cons_left_iff]
    constructor
    · rintro ⟨b, hb, bs, hbs, rfl⟩
      exact ⟨b, bs, hb, hbs, rfl⟩
    · rintro ⟨b, bs, hb, hbs, rfl⟩
      exact ⟨b, hb, bs, hbs, rfl⟩

/-- Lists that are put together of lists of partners are lists of partners. -/
lemma forall₂_flatMap {γ : Type*} {R : β → γ → Prop} {f : α → List β} {g : α → List γ}
    {l : List α} (h : ∀ a ∈ l, List.Forall₂ R (f a) (g a)) :
    List.Forall₂ R (l.flatMap f) (l.flatMap g) := by
  induction l with
  | nil => exact .nil
  | cons a l ih =>
    obtain ⟨ha, hl⟩ := List.forall_mem_cons.mp h
    exact List.rel_append ha (ih hl)

/-- What stands in a block has the key of that block. -/
lemma key_mem_of_mem_flatten {κ : Type*} {key : α → κ} {keys : List κ} {blocks : List (List α)}
    (h : List.Forall₂ (fun k block => ∀ a ∈ block, key a = k) keys blocks) {a : α}
    (ha : a ∈ blocks.flatten) : key a ∈ keys := by
  obtain ⟨block, hblock, ha⟩ := List.mem_flatten.mp ha
  obtain ⟨k, hk, hall⟩ := exists_mem_of_forall₂ h.flip hblock
  exact hall a ha ▸ hk

/-- What stands in blocks, each of which has a key of its own, can be found by the keys. -/
lemma flatten_eq_flatMap_filter {κ : Type*} [DecidableEq κ] {key : α → κ} {keys : List κ}
    {blocks : List (List α)} (hkeys : keys.Nodup)
    (h : List.Forall₂ (fun k block => ∀ a ∈ block, key a = k) keys blocks) :
    blocks.flatten = keys.flatMap fun k => blocks.flatten.filter fun a => key a == k := by
  induction h with
  | nil => rfl
  | @cons k block keys blocks hblock hblocks ih =>
    obtain ⟨hk, hnodup⟩ := List.nodup_cons.mp hkeys
    have hfirst : block.filter (fun a => key a == k) = block :=
      List.filter_eq_self.mpr fun a ha => beq_iff_eq.mpr (hblock a ha)
    have hrest : blocks.flatten.filter (fun a => key a == k) = [] :=
      List.filter_eq_nil_iff.mpr fun a ha heq =>
        hk (beq_iff_eq.mp heq ▸ key_mem_of_mem_flatten hblocks ha)
    have hothers : ∀ k' ∈ keys, block.filter (fun a => key a == k') = [] :=
      fun k' hk' => List.filter_eq_nil_iff.mpr fun a ha heq =>
        hk ((hblock a ha).symm.trans (beq_iff_eq.mp heq) ▸ hk')
    rw [List.flatten_cons, List.flatMap_cons, List.filter_append, hfirst, hrest, List.append_nil]
    refine congrArg (block ++ ·) ((ih hnodup).trans (List.flatMap_congr fun k' hk' => ?_))
    rw [List.filter_append, hothers k' hk', List.nil_append]

/-- Leaving out the members without a property while mapping is the same as filtering first and
mapping then. -/
lemma filterMap_ite_eq (p : α → Bool) (f : α → β) (l : List α) :
    l.filterMap (fun a => if p a then some (f a) else none) = (l.filter p).map f := by
  induction l with
  | nil => rfl
  | cons a l ih => cases hp : p a <;> simp [hp, ih]

/-- The members with a property can be found among the members with their positions. -/
lemma filter_eq_map_filter_zipIdx (p : α → Bool) (l : List α) :
    l.filter p = (l.zipIdx.filter fun x => p x.1).map Prod.fst := by
  conv_lhs => rw [← List.zipIdx_map_fst 0 l, List.filter_map]
  rfl

/-- The positions of the members of a list increase. -/
lemma pairwise_snd_lt_zipIdx (l : List α) (n : ℕ) :
    (l.zipIdx n).Pairwise fun a b => a.2 < b.2 := by
  rw [← List.pairwise_map (R := (· < ·)), List.zipIdx_map_snd]
  exact List.pairwise_lt_range'

/-- Partners are partners as well when one of their lists is told with positions. -/
lemma forall₂_zipIdx {R : α → β → Prop} {l : List α} {l' : List β} (h : List.Forall₂ R l l')
    (n : ℕ) : List.Forall₂ (fun x b => R x.1 b) (l.zipIdx n) l' := by
  induction h generalizing n with
  | nil => exact .nil
  | cons hab _ ih => exact .cons hab (ih (n + 1))

/-- Steps that commute with one another may be taken in any order. -/
lemma foldlM_eq_of_perm {σ : Type} {f : σ → α → Option σ} {l l' : List α} (h : l.Perm l')
    (hcomm : l.Pairwise fun a b => ∀ s, (f s a).bind (f · b) = (f s b).bind (f · a)) (s : σ) :
    l.foldlM f s = l'.foldlM f s := by
  induction h generalizing s with
  | nil => rfl
  | cons a _ ih =>
    rw [List.foldlM_cons, List.foldlM_cons]
    exact Option.bind_congr fun t _ => ih (List.pairwise_cons.mp hcomm).2 t
  | swap a b l =>
    have hab := (List.pairwise_cons.mp hcomm).1 a List.mem_cons_self s
    simp only [List.foldlM_cons, Option.bind_eq_bind, ← Option.bind_assoc, hab]
  | trans hl _ ih ih' =>
    rw [ih hcomm s]
    exact ih' (hcomm.perm hl fun hab t => (hab t).symm) s

end ParcelCompanion
