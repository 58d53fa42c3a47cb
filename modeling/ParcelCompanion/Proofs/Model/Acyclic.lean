import Mathlib.Data.List.Nodup
import ParcelCompanion.Proofs.Answer
import ParcelCompanion.Proofs.Model.Hierarchy

/-!
# The search for circles

The search goes up from every declaration in turn.  The declarations on its path are distinct, each
of them but the first is a direct supertype of the one before, and no circle can be reached from a
declaration that is done.  So the search either names a circle or finds that there is none.
-/

namespace ParcelCompanion.Model

variable {strict : Prop} {m : Model}

/-- No circle can be reached from the declarations that are done. -/
def AllDone (m : Model) (done : Std.TreeSet ℕ) : Prop :=
  ∀ id : DeclId, id.index ∈ done → m.NoCircleAbove id

/-- A search that answers knows `q` and has rightly done what it did, and a search that fails names
a circle. -/
def Searched (m : Model) (q : Prop) : Except ModelError (Std.TreeSet ℕ) → Prop
  | .ok done => m.AllDone done ∧ q
  | .error e => ∃ names, e = .cyclicHierarchy names ∧ m.IsCircle names

lemma Searched.mono {q q' : Prop} {answer : Except ModelError (Std.TreeSet ℕ)}
    (h : m.Searched q answer) (hq : q → q') : m.Searched q' answer := by
  cases answer with
  | ok done => exact h.imp_right hq
  | error e => exact h

/-- Searches that follow one another know what each of them knows. -/
lemma Searched.bind {q r : Prop} {answer : Except ModelError (Std.TreeSet ℕ)}
    {next : Std.TreeSet ℕ → Except ModelError (Std.TreeSet ℕ)} (h : m.Searched q answer)
    (hnext : ∀ done, m.AllDone done → q → m.Searched r (next done)) :
    m.Searched r (answer >>= next) := by
  cases answer with
  | ok done => exact hnext done h.1 h.2
  | error e => exact h

/-- One more declaration may be done when no circle can be reached from it. -/
lemma AllDone.insert {done : Std.TreeSet ℕ} (hdone : m.AllDone done) {id : DeclId}
    (hid : m.NoCircleAbove id) : m.AllDone (done.insert id.index) := by
  intro other hother
  rcases Std.TreeSet.mem_insert.mp hother with heq | hold
  · exact DeclId.eq_of_index_eq (Std.compare_eq_iff_eq.mp heq) ▸ hid
  · exact hdone other hold

/-- A search through a list knows of each member what the search from that member knows. -/
lemma searched_foldlM {α : Type} {q : α → Prop} {xs : List α}
    {search : Std.TreeSet ℕ → α → Except ModelError (Std.TreeSet ℕ)}
    (h : ∀ x ∈ xs, ∀ done, m.AllDone done → m.Searched (q x) (search done x))
    {done : Std.TreeSet ℕ} (hdone : m.AllDone done) :
    m.Searched (∀ x ∈ xs, q x) (xs.foldlM search done) := by
  induction xs generalizing done with
  | nil => exact ⟨hdone, nofun⟩
  | cons x xs ih =>
    rw [List.foldlM_cons]
    refine (h x List.mem_cons_self done hdone).bind fun done' hdone' hx => ?_
    refine (ih (fun y hy => h y (List.mem_cons_of_mem _ hy)) hdone').mono fun hxs => ?_
    exact List.forall_mem_cons.mpr ⟨hx, hxs⟩

/-! ### The path -/

/-- A path is given from its end, and each of its declarations has the one before as a direct
supertype. -/
def IsPath (m : Model) (path : List DeclId) : Prop :=
  path.IsChain fun a b => m.DirectSuper b a

/-- All declarations of a path but its end are there. -/
lemma IsPath.declaration? {path : List DeclId} {id : DeclId} (h : m.IsPath (id :: path)) :
    ∀ p ∈ path, ∃ d, m.declaration? p = some d := by
  induction path generalizing id with
  | nil => exact nofun
  | cons p path ih =>
    obtain ⟨⟨d, hd, -⟩, hrest⟩ := List.isChain_cons_cons.mp h
    exact List.forall_mem_cons.mpr ⟨⟨d, hd⟩, ih hrest⟩

/-- The name of a declaration that is there, for all declarations at once. -/
lemma exists_nameOf (m : Model) :
    ∃ nameOf : DeclId → String, ∀ id d, m.declaration? id = some d → nameOf id = d.name := by
  refine ⟨fun id => (m.name? id).getD "", fun id d hd => ?_⟩
  simp only [name?, hd, Option.map_some, Option.getD_some]

/-- The names of declarations that are there can be told. -/
lemma mapM_name_eq_ok {ids : List DeclId} {nameOf : DeclId → String}
    (hname : ∀ id d, m.declaration? id = some d → nameOf id = d.name)
    (hids : ∀ id ∈ ids, ∃ d, m.declaration? id = some d) :
    ids.mapM (fun id => return (← m.declaration id).name) = .ok (ids.map nameOf) := by
  rw [mapM_eq_ok_iff, List.forall₂_map_right_iff, List.forall₂_same]
  intro id hid
  obtain ⟨d, hd⟩ := hids id hid
  rw [declaration_eq_ok_iff.mpr hd, hname id d hd]
  rfl

/-- A path that leads from a declaration back to it is a circle. -/
lemma isCircle_of_path (h : m.Linked strict) {id : DeclId} {back : List DeclId}
    (hnodup : (id :: back).Nodup) (hpath : m.IsPath (id :: back ++ [id]))
    {nameOf : DeclId → String}
    (hname : ∀ id d, m.declaration? id = some d → nameOf id = d.name) :
    m.IsCircle ((id :: back.reverse ++ [id]).map nameOf) := by
  have hdecls : ∀ x ∈ id :: back.reverse, ∃ d, m.declaration? x = some d := by
    intro x hx
    refine hpath.declaration? x ?_
    rcases List.mem_cons.mp hx with rfl | hx
    · exact List.mem_append_right _ (List.mem_singleton_self _)
    · exact List.mem_append_left _ (List.mem_reverse.mp hx)
  refine ⟨nameOf id, back.reverse.map nameOf, id, back.reverse, by simp, ?_, ?_, ?_⟩
  · have hids : (id :: back.reverse).Nodup := by
      rwa [List.nodup_cons, List.mem_reverse, List.nodup_reverse, ← List.nodup_cons]
    refine List.Nodup.map_on (fun x hx y hy hxy => ?_) hids
    obtain ⟨d, hd⟩ := hdecls x hx
    obtain ⟨e, he⟩ := hdecls y hy
    rw [hname x d hd, hname y e he] at hxy
    exact h.name_injective hd he hxy
  · rw [← List.map_cons, List.map_map]
    refine List.map_congr_left fun x hx => ?_
    obtain ⟨d, hd⟩ := hdecls x hx
    rw [name?, hd, Option.map_some, Function.comp_apply, hname x d hd]
  · unfold IsPath at hpath
    rw [← List.isChain_reverse] at hpath
    simpa using hpath

/-- When the end of a path stands on the path already, the names from there on are a circle. -/
lemma cycleNames_isCircle (h : m.Linked strict) {path : List DeclId} {id : DeclId}
    (hmem : id ∈ path) (hnodup : path.Nodup) (hpath : m.IsPath (id :: path)) :
    ∃ names, m.cycleNames path id = .ok names ∧ m.IsCircle names := by
  have hdecls := hpath.declaration?
  obtain ⟨back, rest, rfl, hback⟩ := List.eq_append_cons_of_mem hmem
  obtain ⟨nameOf, hname⟩ := exists_nameOf m
  -- The circle leaves `id` along the path, and what lies behind it there is the way back.
  have hloop : m.IsPath (id :: back ++ [id]) := (List.isChain_cons_split.mp hpath).1
  have hnodup' : (id :: back).Nodup := List.nodup_cons.mpr ⟨hback, hnodup.of_append_left⟩
  refine ⟨(id :: back.reverse ++ [id]).map nameOf, ?_, isCircle_of_path h hnodup' hloop hname⟩
  rw [cycleNames, takeWhile_bne_append_cons hback]
  refine mapM_name_eq_ok hname fun x hx => hdecls x ?_
  have hx : x = id ∨ x ∈ back := by simpa [or_comm, or_assoc] using hx
  rcases hx with rfl | hx
  · exact hmem
  · exact List.mem_append_left _ hx

/-! ### The walk -/

/-- The step to a supertype searches the declaration that it applies, if it applies one. -/
lemma searched_supertype (h : m.Coherent strict) {id : DeclId} {d : Declaration} {t : TypeId}
    (hd : m.declaration? id = some d) (ht : t ∈ d.supertypes)
    {walk : DeclId → Except ModelError (Std.TreeSet ℕ)} {done : Std.TreeSet ℕ}
    (hwalk : ∀ next, m.DirectSuper id next → m.Searched (m.NoCircleAbove next) (walk next))
    (hdone : m.AllDone done) :
    m.Searched (∀ next args, m.type? t = some (.declared next args) → m.NoCircleAbove next)
      (do match (← m.type t).declaration? with
        | some next => walk next
        | none => return done) := by
  obtain ⟨term, hterm, -⟩ := h.usable_of_mem_supertypes hd ht
  rw [type_eq_ok_iff.mpr hterm]
  cases term with
  | declared next args =>
    have hstep := directSuper_of_mem_supertypes hd ht hterm
    refine Searched.mono (hwalk next hstep) fun hnext next' args' heq => ?_
    rw [hterm, Option.some.injEq, TypeTerm.declared.injEq] at heq
    exact heq.1 ▸ hnext
  | _ => exact ⟨hdone, fun next args heq => nomatch hterm.symm.trans heq⟩

/-- The walk up from the end of a path finds the circles above it.  The path has no room to grow
beyond the declarations of the model, so that the depth never runs out. -/
lemma searched_walkUp (h : m.Coherent strict) {depth : ℕ} {path : List DeclId} {id : DeclId}
    {done : Std.TreeSet ℕ} (hid : ∃ d, m.declaration? id = some d) (hnodup : path.Nodup)
    (hpath : m.IsPath (id :: path)) (hdepth : m.declarations.size < depth + path.length)
    (hdone : m.AllDone done) :
    m.Searched (m.NoCircleAbove id) (m.walkUp depth path id done) := by
  induction depth generalizing path id done with
  | zero =>
    have hlength := length_le_of_nodup hnodup hpath.declaration?
    omega
  | succ depth ih =>
    obtain ⟨d, hd⟩ := hid
    rw [walkUp, declaration_eq_ok_iff.mpr hd]
    change m.Searched _ (if _ then _ else _)
    split
    · next hmem => exact ⟨hdone, hdone id hmem⟩
    split
    · next hmem =>
      have hmem : id ∈ path := by simpa using hmem
      obtain ⟨names, hnames, hcircle⟩ := cycleNames_isCircle h.toLinked hmem hnodup hpath
      rw [hnames]
      exact ⟨names, rfl, hcircle⟩
    · next hmem =>
      have hmem : id ∉ path := by simpa using hmem
      have hwalk : ∀ done, m.AllDone done → ∀ next, m.DirectSuper id next →
          m.Searched (m.NoCircleAbove next) (m.walkUp depth (id :: path) next done) := by
        intro done hdone next hnext
        refine ih (h.declaration?_of_directSuper hnext) (List.nodup_cons.mpr ⟨hmem, hnodup⟩)
          (List.isChain_cons_cons.mpr ⟨hnext, hpath⟩) ?_ hdone
        rw [List.length_cons]
        omega
      refine (searched_foldlM (fun t ht done hdone =>
        searched_supertype h hd ht (hwalk done hdone) hdone) hdone).bind
          fun done' hdone' hsupers => ?_
      have hid : m.NoCircleAbove id := by
        refine noCircleAbove_of_directSuper fun next hnext => ?_
        obtain ⟨e, he, t, args, ht, hterm⟩ := hnext
        obtain rfl := Option.some.inj (hd.symm.trans he)
        exact hsupers t (Declaration.mem_supertypes.mpr ht) next args hterm
      exact ⟨hdone'.insert hid, hid⟩

/-- A check that succeeds finds no circle, and a check that fails names one. -/
lemma checkAcyclic_cases (h : m.Coherent strict) :
    (m.checkAcyclic = .ok () ∧ ∀ id, ¬ Relation.TransGen m.DirectSuper id id) ∨
      ∃ names, m.checkAcyclic = .error (.cyclicHierarchy names) ∧ m.IsCircle names := by
  have hsearch : m.Searched (∀ i ∈ List.range m.declarations.size, m.NoCircleAbove ⟨i⟩)
      ((List.range m.declarations.size).foldlM
        (fun done index => m.walkUp (m.declarations.size + 1) [] ⟨index⟩ done) ∅) := by
    refine searched_foldlM (fun i hi done hdone => ?_) (by simp [AllDone])
    have hi : i < m.declarations.size := List.mem_range.mp hi
    exact searched_walkUp h ⟨m.declarations[i], Array.getElem?_eq_getElem hi⟩ List.nodup_nil
      (List.isChain_singleton _) (by simp) hdone
  unfold checkAcyclic
  cases hr : (List.range m.declarations.size).foldlM
    (fun done index => m.walkUp (m.declarations.size + 1) [] ⟨index⟩ done) ∅ with
  | ok done =>
    rw [hr] at hsearch
    refine Or.inl ⟨rfl, fun id hcircle => ?_⟩
    obtain ⟨next, ⟨d, hd, -⟩, -⟩ := Relation.TransGen.head'_iff.mp hcircle
    exact hsearch.2 id.index (List.mem_range.mpr (index_lt_of_declaration? hd)) id .refl hcircle
  | error e =>
    rw [hr] at hsearch
    obtain ⟨names, rfl, hcircle⟩ := hsearch
    exact Or.inr ⟨names, rfl, hcircle⟩

end ParcelCompanion.Model
