import Mathlib.Data.Fintype.Card
import ParcelCompanion.Proofs.Meaning.TypeTree

/-!
# How deep trees are

In a model under construction a type may be made of types that come later, so that its number says
nothing about the types below it.  Still no type that denotes a tree is nested more deeply than
there are types: on the way down all types are different, since they denote trees of different
heights.  Hence types that denote trees have canonical names in every model.
-/

namespace ParcelCompanion

namespace TypeTree

mutual

/-- The number of trees on the longest way down from a tree. -/
def height : TypeTree → ℕ
  | .declared _ args => heights args + 1
  | .array element => element.height + 1
  | .bounded _ bound => bound.height + 1
  | _ => 1

/-- The greatest height of several trees. -/
def heights : List TypeTree → ℕ
  | [] => 0
  | tree :: trees => max tree.height (heights trees)

end

lemma height_pos (tree : TypeTree) : 0 < tree.height := by
  cases tree <;> simp [height]

end TypeTree

namespace Model

variable {m : Model} {id : TypeId} {tree : TypeTree}

mutual

/-- A type that denotes a tree has the name of the tree within any depth that the tree fits in. -/
lemma Denotes.nameWithin {id : TypeId} {tree : TypeTree} (h : m.Denotes id tree) {depth : ℕ}
    (hdepth : tree.height ≤ depth) : m.nameWithin depth id = .ok tree.name := by
  obtain ⟨below, rfl⟩ := Nat.exists_eq_add_one.mpr (tree.height_pos.trans_le hdepth)
  match tree with
  | .primitive kind =>
    rw [nameWithin_succ h]
    rfl
  | .declared name args =>
    obtain ⟨decl, d, ids, hid, hd, rfl, hargs⟩ := h
    rw [TypeTree.height, Nat.add_le_add_iff_right] at hdepth
    have hnames := hargs.namesWithin hdepth
    have hlength := hargs.length_eq
    have hd := declaration_eq_ok_iff.mpr hd
    rw [nameWithin_succ hid, TypeTree.name]
    cases ids with
    | nil =>
      obtain rfl : args = [] := List.length_eq_zero_iff.mp hlength.symm
      rw [spell, hd]
      rfl
    | cons id ids =>
      have hempty : args.isEmpty = false := by
        cases args with
        | nil => exact nomatch hlength
        | cons arg args => rfl
      rw [spell, hd, hnames, hempty]
      rfl
  | .parameter owner index name =>
    obtain ⟨decl, d, parameter, hid, hd, -, hparameter, rfl⟩ := h
    rw [nameWithin_succ hid, spell, typeParameter_eq_ok_iff.mpr ⟨d, hd, hparameter⟩]
    rfl
  | .array element =>
    obtain ⟨component, hid, hcomponent⟩ := h
    rw [TypeTree.height, Nat.add_le_add_iff_right] at hdepth
    rw [nameWithin_succ hid, spell, hcomponent.nameWithin hdepth]
    rfl
  | .wildcard =>
    rw [nameWithin_succ h]
    rfl
  | .bounded .upper bound =>
    obtain ⟨component, hid, hcomponent⟩ := h
    rw [TypeTree.height, Nat.add_le_add_iff_right] at hdepth
    rw [nameWithin_succ hid, spell, hcomponent.nameWithin hdepth]
    rfl
  | .bounded .lower bound =>
    obtain ⟨component, hid, hcomponent⟩ := h
    rw [TypeTree.height, Nat.add_le_add_iff_right] at hdepth
    rw [nameWithin_succ hid, spell, hcomponent.nameWithin hdepth]
    rfl
  | .unresolved name =>
    rw [nameWithin_succ h]
    rfl
termination_by structural tree

lemma DenotesAll.namesWithin {ids : List TypeId} {trees : List TypeTree}
    (h : m.DenotesAll ids trees) {depth : ℕ} (hdepth : TypeTree.heights trees ≤ depth) :
    ids.mapM (m.nameWithin depth) = .ok (TypeTree.names trees) := by
  match trees with
  | [] =>
    obtain rfl : ids = [] := h
    rfl
  | tree :: trees =>
    obtain ⟨id, rest, rfl, hid, hrest⟩ := h
    rw [TypeTree.heights, Nat.max_le] at hdepth
    rw [List.mapM_cons, hid.nameWithin hdepth.1, hrest.namesWithin hdepth.2]
    rfl
termination_by structural trees

end

mutual

/-- Below a type that denotes a tree there are types that denote trees of every smaller height. -/
lemma Denotes.exists_of_le_height {id : TypeId} {tree : TypeTree} (h : m.Denotes id tree) {n : ℕ}
    (hpos : 0 < n) (hn : n ≤ tree.height) :
    ∃ id' tree', m.Denotes id' tree' ∧ tree'.height = n := by
  rcases Nat.eq_or_lt_of_le hn with rfl | hlt
  · exact ⟨id, tree, h, rfl⟩
  match tree with
  | .declared name args =>
    obtain ⟨decl, d, ids, -, -, -, hargs⟩ := h
    exact hargs.exists_of_le_heights hpos (Nat.lt_succ_iff.mp hlt)
  | .array element =>
    obtain ⟨component, -, hcomponent⟩ := h
    exact hcomponent.exists_of_le_height hpos (Nat.lt_succ_iff.mp hlt)
  | .bounded .upper bound =>
    obtain ⟨component, -, hcomponent⟩ := h
    exact hcomponent.exists_of_le_height hpos (Nat.lt_succ_iff.mp hlt)
  | .bounded .lower bound =>
    obtain ⟨component, -, hcomponent⟩ := h
    exact hcomponent.exists_of_le_height hpos (Nat.lt_succ_iff.mp hlt)
  | .primitive _ | .parameter .. | .wildcard | .unresolved _ =>
    exact absurd hpos (by simpa [TypeTree.height] using hlt)
termination_by structural tree

lemma DenotesAll.exists_of_le_heights {ids : List TypeId} {trees : List TypeTree}
    (h : m.DenotesAll ids trees) {n : ℕ} (hpos : 0 < n) (hn : n ≤ TypeTree.heights trees) :
    ∃ id' tree', m.Denotes id' tree' ∧ tree'.height = n := by
  match trees with
  | [] => exact absurd (hpos.trans_le hn) (Nat.lt_irrefl 0)
  | tree :: trees =>
    obtain ⟨id, rest, rfl, hid, hrest⟩ := h
    rw [TypeTree.heights, le_max_iff] at hn
    rcases hn with hn | hn
    · exact hid.exists_of_le_height hpos hn
    · exact hrest.exists_of_le_heights hpos hn
termination_by structural trees

end

/-- No tree that a type denotes is higher than there are types. -/
lemma Denotes.height_le (h : m.Denotes id tree) : tree.height ≤ m.types.size := by
  have hexists : ∀ i : Fin tree.height, ∃ j : Fin m.types.size, ∃ tree',
      m.Denotes ⟨j⟩ tree' ∧ tree'.height = i + 1 := by
    intro i
    obtain ⟨id', tree', hid', hheight⟩ := h.exists_of_le_height (Nat.succ_pos i) i.isLt
    obtain ⟨term, hterm⟩ := hid'.exists_type?
    exact ⟨⟨id'.index, index_lt_of_type? hterm⟩, tree', hid', hheight⟩
  choose number tree' hdenotes hheight using hexists
  -- A type denotes one tree only, and so it stands at one height only.
  have hinjective : Function.Injective number := by
    intro i i' heq
    have htree := (hdenotes i).unique (heq ▸ hdenotes i')
    have hheights := hheight i
    rw [htree, hheight i'] at hheights
    exact Fin.ext (Nat.succ.inj hheights).symm
  simpa using Fintype.card_le_of_injective number hinjective

/-- A type that denotes a tree has the canonical name of the tree, in whatever order types were
stored. -/
lemma Denotes.canonicalName (h : m.Denotes id tree) : m.canonicalName id = .ok tree.name :=
  h.nameWithin (Nat.le_succ_of_le h.height_le)

lemma DenotesAll.canonicalNames {ids : List TypeId} {trees : List TypeTree}
    (h : m.DenotesAll ids trees) : ids.mapM m.canonicalName = .ok (TypeTree.names trees) := by
  induction trees generalizing ids with
  | nil =>
    obtain rfl : ids = [] := h
    rfl
  | cons tree trees ih =>
    obtain ⟨id, rest, rfl, hid, hrest⟩ := h
    rw [List.mapM_cons, hid.canonicalName, ih hrest]
    rfl

end Model

end ParcelCompanion
