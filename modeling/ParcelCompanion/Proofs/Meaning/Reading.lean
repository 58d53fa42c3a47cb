import ParcelCompanion.Proofs.Meaning.Entries
import ParcelCompanion.Proofs.Model.Indexed

/-!
# What a text resolves to

Types are interned, so only one type of a model denotes a tree.  Hence the tree that a text means by
the names of a model determines the type that the text resolves to in the model, no matter how many
types there were when it was resolved.
-/

namespace ParcelCompanion.Model

variable {strict : Prop} {m : Model}

/-! ### One type for each tree -/

mutual

/-- Types that denote the same tree are the same. -/
lemma Denotes.eq (hm : m.Coherent strict) {tree : TypeTree} {a b : TypeId}
    (ha : m.Denotes a tree) (hb : m.Denotes b tree) : a = b := by
  match tree with
  | .primitive kind => exact hm.interned.type?_injective ha hb
  | .declared name args =>
    obtain ⟨decl, d, ids, hid, hd, hname, hargs⟩ := ha
    obtain ⟨decl', d', ids', hid', hd', hname', hargs'⟩ := hb
    obtain rfl := hm.name_injective hd hd' (hname.trans hname'.symm)
    obtain rfl := hargs.eq hm hargs'
    exact hm.interned.type?_injective hid hid'
  | .parameter owner index name =>
    obtain ⟨decl, d, -, hid, hd, hname, -⟩ := ha
    obtain ⟨decl', d', -, hid', hd', hname', -⟩ := hb
    obtain rfl := hm.name_injective hd hd' (hname.trans hname'.symm)
    exact hm.interned.type?_injective hid hid'
  | .array element =>
    obtain ⟨component, hid, hcomponent⟩ := ha
    obtain ⟨component', hid', hcomponent'⟩ := hb
    obtain rfl := hcomponent.eq hm hcomponent'
    exact hm.interned.type?_injective hid hid'
  | .wildcard => exact hm.interned.type?_injective ha hb
  | .bounded .upper bound =>
    obtain ⟨component, hid, hcomponent⟩ := ha
    obtain ⟨component', hid', hcomponent'⟩ := hb
    obtain rfl := hcomponent.eq hm hcomponent'
    exact hm.interned.type?_injective hid hid'
  | .bounded .lower bound =>
    obtain ⟨component, hid, hcomponent⟩ := ha
    obtain ⟨component', hid', hcomponent'⟩ := hb
    obtain rfl := hcomponent.eq hm hcomponent'
    exact hm.interned.type?_injective hid hid'
  | .unresolved name => exact hm.interned.type?_injective ha hb
termination_by structural tree

lemma DenotesAll.eq (hm : m.Coherent strict) {trees : List TypeTree} {ids ids' : List TypeId}
    (h : m.DenotesAll ids trees) (h' : m.DenotesAll ids' trees) : ids = ids' := by
  match trees with
  | [] => exact Eq.trans h (Eq.symm h')
  | tree :: trees =>
    obtain ⟨id, rest, rfl, hid, hrest⟩ := h
    obtain ⟨id', rest', rfl, hid', hrest'⟩ := h'
    rw [hid.eq hm hid', hrest.eq hm hrest']
termination_by structural trees

end

/-! ### Texts -/

/-- In the context `context`, the text resolves to the type with the given number. -/
def ResolvesText (m : Model) (context : DeclId) (text : String) (id : TypeId) : Prop :=
  ((Edit.resolveText context text).apply m).1 = .ok id

/-- A text resolves to the type that denotes what the text means. -/
lemma resolvesText_of_reads (hm : m.Coherent False) {context : DeclId} {d : Declaration}
    (hd : m.declaration? context = some d) {text : String} {tree : TypeTree}
    (htext : m.names.Reads d.name text tree) {id : TypeId} (hid : m.Denotes id tree) :
    m.ResolvesText context text id := by
  have hname : m.lookup d.name = some context := (hm.names d.name context).mpr ⟨d, hd, rfl⟩
  have hfinds := Edit.finds_resolveText hname text hm
  rw [show m.names.resolveText d.name text = some tree from htext] at hfinds
  unfold Edit.Computes Edit.Ensures at hfinds
  rw [ResolvesText]
  rcases hr : (Edit.resolveText context text).apply m with ⟨e | id', m'⟩ <;> rw [hr] at hfinds
  · exact nomatch hfinds
  · obtain ⟨tree', htree, hadds, hid'⟩ := hfinds
    obtain rfl := Option.some.inj htree
    rw [Denotes.eq hadds.coherent hid' (hid.of_extends hadds.toExtends)]

/-- Texts resolve to types one by one. -/
lemma forall₂_resolvesText_of_reads (hm : m.Coherent False) {context : DeclId} {d : Declaration}
    (hd : m.declaration? context = some d) {texts : List String} {trees : List TypeTree}
    (htexts : List.Forall₂ (m.names.Reads d.name) texts trees) {ids : List TypeId}
    (hids : List.Forall₂ m.Denotes ids trees) :
    List.Forall₂ (m.ResolvesText context) texts ids := by
  induction htexts generalizing ids with
  | nil =>
    obtain rfl := List.forall₂_nil_right_iff.mp hids
    exact .nil
  | cons htext _ ih =>
    obtain ⟨id, rest, hid, hrest, rfl⟩ := List.forall₂_cons_right_iff.mp hids
    exact .cons (resolvesText_of_reads hm hd htext hid) (ih hrest)

end ParcelCompanion.Model
