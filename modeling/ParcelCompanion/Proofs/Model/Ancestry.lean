import ParcelCompanion.Command.Run
import ParcelCompanion.Proofs.Model.Subtype

/-!
# The list of supertypes is the tree that the check searches

A route tells how to go up from a type: it names, for each step, the position of a direct supertype
among those of the type that was reached.  In the lexicographic order of routes a type comes before
all that is above it, and what is above its superclass comes before what is above its interfaces.
That is the order of the list of supertypes, which has one member for every route there is.

What some route reaches is what supertypes lead to.  So the list holds a type that matches a target
just when the check succeeds, and an explanation that is made of both agrees with itself.
-/

namespace ParcelCompanion

namespace Model

variable {m : Model} {id : TypeId}

/-! ### Routes -/

/-- The declaration that a type applies. -/
def applied? (m : Model) (id : TypeId) : Option Declaration :=
  ((m.type? id).bind TypeTerm.declaration?).bind m.declaration?

/-- The direct supertype of a declaration at a position, with the relation to it.  The superclass
has the first position, if there is one, and the interfaces have those behind it. -/
def superAt? (d : Declaration) (position : ℕ) : Option (Relation × TypeId) :=
  match d.superclass, position with
  | some superclass, 0 => some (.extends, superclass)
  | some _, position + 1 => d.interfaces[position]?.map (interfaceRelation d.kind, ·)
  | none, position => d.interfaces[position]?.map (interfaceRelation d.kind, ·)

/-- Where a route leads, with the last relation on the way. -/
def climb (m : Model) (relation : Option Relation) (id : TypeId) :
    List ℕ → Option (Option Relation × TypeId)
  | [] => some (relation, id)
  | position :: route =>
    match (m.applied? id).bind (superAt? · position) with
    | some (relation, above) => m.climb (some relation) above route
    | none => none

/-- The direct supertypes of a type, in the order of their positions. -/
def relationsAbove (m : Model) (id : TypeId) : List (Relation × TypeId) :=
  (m.applied? id).elim [] supertypeRelations

lemma applied?_eq_some_iff {d : Declaration} :
    m.applied? id = some d ↔
      ∃ decl args, m.type? id = some (.declared decl args) ∧ m.declaration? decl = some d := by
  unfold applied?
  constructor
  · intro happlied
    obtain ⟨decl, hdecl, hd⟩ := Option.bind_eq_some_iff.mp happlied
    obtain ⟨term, hid, hterm⟩ := Option.bind_eq_some_iff.mp hdecl
    cases term with
    | declared decl' args =>
      obtain rfl := Option.some.inj hterm
      exact ⟨decl', args, hid, hd⟩
    | _ => exact nomatch hterm
  · rintro ⟨decl, args, hid, hd⟩
    rw [hid]
    exact hd

lemma map_snd_supertypeRelations (d : Declaration) :
    (supertypeRelations d).map Prod.snd = d.supertypes := by
  simp [supertypeRelations, Declaration.supertypes, Function.comp_def]

lemma getElem?_supertypeRelations (d : Declaration) (position : ℕ) :
    (supertypeRelations d)[position]? = superAt? d position := by
  unfold supertypeRelations superAt?
  cases d.superclass with
  | none => simp
  | some superclass => cases position <;> simp

lemma getElem?_relationsAbove (m : Model) (id : TypeId) (position : ℕ) :
    (m.relationsAbove id)[position]? = (m.applied? id).bind (superAt? · position) := by
  unfold relationsAbove
  cases m.applied? id with
  | none => rfl
  | some d => exact getElem?_supertypeRelations d position

lemma climb_cons_eq_some_iff {relation : Option Relation} {position : ℕ} {route : List ℕ}
    {last : Option Relation × TypeId} :
    m.climb relation id (position :: route) = some last ↔
      ∃ next above, (m.relationsAbove id)[position]? = some (next, above) ∧
        m.climb (some next) above route = some last := by
  rw [getElem?_relationsAbove, climb]
  cases (m.applied? id).bind (superAt? · position) with
  | none => simp
  | some step =>
    obtain ⟨next, above⟩ := step
    simp

/-- The direct supertypes of a type are those at its positions. -/
lemma exists_mem_relationsAbove_iff {above : TypeId} :
    (∃ relation, (relation, above) ∈ m.relationsAbove id) ↔ m.Supertype id above := by
  constructor
  · rintro ⟨relation, hmem⟩
    unfold relationsAbove at hmem
    cases happlied : m.applied? id with
    | none => exact nomatch happlied ▸ hmem
    | some d =>
      rw [happlied] at hmem
      obtain ⟨decl, args, hid, hd⟩ := applied?_eq_some_iff.mp happlied
      have habove : above ∈ (supertypeRelations d).map Prod.snd := List.mem_map_of_mem hmem
      rw [map_snd_supertypeRelations] at habove
      exact (supertype_iff_of_declared hid hd).mpr habove
  · rintro ⟨decl, args, d, hid, hd, habove⟩
    have happlied : m.applied? id = some d := applied?_eq_some_iff.mpr ⟨decl, args, hid, hd⟩
    rw [← Declaration.mem_supertypes, ← map_snd_supertypeRelations] at habove
    obtain ⟨⟨relation, _⟩, hmem, rfl⟩ := List.mem_map.mp habove
    rw [relationsAbove, happlied]
    exact ⟨relation, hmem⟩

/-- Routes reach what supertypes lead to. -/
lemma exists_climb_iff (relation : Option Relation) {above : TypeId} :
    (∃ route last, m.climb relation id route = some (last, above)) ↔
      Relation.ReflTransGen m.Supertype id above := by
  constructor
  · rintro ⟨route, last, hclimb⟩
    induction route generalizing id relation with
    | nil =>
      obtain ⟨-, rfl⟩ := Prod.mk.inj (Option.some.inj hclimb)
      exact .refl
    | cons position route ih =>
      obtain ⟨next, through, hstep, hrest⟩ := climb_cons_eq_some_iff.mp hclimb
      have hsuper : m.Supertype id through :=
        exists_mem_relationsAbove_iff.mp ⟨next, List.mem_of_getElem? hstep⟩
      exact .head hsuper (ih _ hrest)
  · intro hreach
    induction hreach using Relation.ReflTransGen.head_induction_on generalizing relation with
    | refl => exact ⟨[], relation, rfl⟩
    | head hstep _ ih =>
      obtain ⟨next, hmem⟩ := exists_mem_relationsAbove_iff.mpr hstep
      obtain ⟨position, hposition⟩ := List.getElem?_of_mem hmem
      obtain ⟨route, last, hclimb⟩ := ih (some next)
      exact ⟨position :: route, last, climb_cons_eq_some_iff.mpr ⟨next, _, hposition, hclimb⟩⟩

/-! ### The routes in order -/

/-- The routes with fewer than `height` steps. -/
def routesWithin (m : Model) : ℕ → TypeId → List (List ℕ)
  | 0, _ => []
  | height + 1, id => [] :: (m.relationsAbove id).zipIdx.flatMap fun (step, position) =>
      (m.routesWithin height step.2).map (position :: ·)

/-- Routes are listed in their order. -/
lemma pairwise_routesWithin (m : Model) (height : ℕ) (id : TypeId) :
    (m.routesWithin height id).Pairwise (· < ·) := by
  induction height generalizing id with
  | zero => exact .nil
  | succ height ih =>
    refine List.pairwise_cons.mpr ⟨?_, List.pairwise_flatMap.mpr ⟨?_, ?_⟩⟩
    · intro route hroute
      obtain ⟨step, -, hroute⟩ := List.mem_flatMap.mp hroute
      obtain ⟨rest, -, rfl⟩ := List.mem_map.mp hroute
      exact List.nil_lt_cons _ _
    · intro step _
      exact List.pairwise_map.mpr ((ih _).imp List.cons_lt_cons_self.mpr)
    · -- Routes through different positions are told apart by their first step.
      refine (pairwise_snd_lt_zipIdx _ 0).imp fun hlt first hfirst second hsecond => ?_
      obtain ⟨_, -, rfl⟩ := List.mem_map.mp hfirst
      obtain ⟨_, -, rfl⟩ := List.mem_map.mp hsecond
      exact List.cons_lt_cons_iff.mpr (.inl hlt)

lemma mem_routesWithin_succ_cons {height position : ℕ} {route : List ℕ} :
    position :: route ∈ m.routesWithin (height + 1) id ↔
      ∃ next above, (m.relationsAbove id)[position]? = some (next, above) ∧
        route ∈ m.routesWithin height above := by
  rw [routesWithin, List.mem_cons, List.mem_flatMap]
  constructor
  · rintro (hnil | ⟨⟨⟨next, above⟩, n⟩, hstep, hroute⟩)
    · exact nomatch hnil
    · obtain ⟨rest, hrest, heq⟩ := List.mem_map.mp hroute
      obtain ⟨rfl, rfl⟩ := List.cons.inj heq
      exact ⟨next, above, List.mem_zipIdx_iff_getElem?.mp hstep, hrest⟩
  · rintro ⟨next, above, hstep, hroute⟩
    exact .inr ⟨((next, above), position), List.mem_zipIdx_iff_getElem?.mpr hstep,
      List.mem_map_of_mem hroute⟩

/-- All routes are listed, provided that the list goes high enough. -/
lemma mem_routesWithin_iff {height bound : ℕ} {relation : Option Relation} {route : List ℕ}
    (hends : m.EndsWithin height id) (hbound : height ≤ bound) :
    route ∈ m.routesWithin bound id ↔ ∃ last, m.climb relation id route = some last := by
  induction height generalizing bound id relation route with
  | zero => exact hends.elim
  | succ height ih =>
    obtain ⟨below, rfl⟩ : ∃ below, bound = below + 1 := ⟨bound - 1, by omega⟩
    cases route with
    | nil => exact ⟨fun _ => ⟨_, rfl⟩, fun _ => List.mem_cons_self⟩
    | cons position route =>
      have hrest : ∀ next above, (m.relationsAbove id)[position]? = some (next, above) →
          (route ∈ m.routesWithin below above ↔
            ∃ last, m.climb (some next) above route = some last) := by
        intro next above hstep
        have hsuper : m.Supertype id above :=
          exists_mem_relationsAbove_iff.mp ⟨next, List.mem_of_getElem? hstep⟩
        exact ih (hends above hsuper) (by omega)
      rw [mem_routesWithin_succ_cons]
      constructor
      · rintro ⟨next, above, hstep, hroute⟩
        obtain ⟨last, hlast⟩ := (hrest next above hstep).mp hroute
        exact ⟨last, climb_cons_eq_some_iff.mpr ⟨next, above, hstep, hlast⟩⟩
      · rintro ⟨last, hclimb⟩
        obtain ⟨next, above, hstep, hlast⟩ := climb_cons_eq_some_iff.mp hclimb
        exact ⟨next, above, hstep, (hrest next above hstep).mpr ⟨last, hlast⟩⟩

/-! ### The list -/

/-- A member of the list of supertypes stands for a route, on which `depth` steps led to the
start. -/
def IsAt (m : Model) (depth : ℕ) (relation : Option Relation) (id : TypeId) (route : List ℕ)
    (ancestor : Ancestor) : Prop :=
  m.climb relation id route = some (ancestor.relation, ancestor.type) ∧
    ancestor.depth = depth + route.length ∧ m.canonicalName ancestor.type = .ok ancestor.name

/-- The list of supertypes starts with the type itself, behind which come the lists of its direct
supertypes. -/
lemma Coherent.ancestryWithin_succ {strict : Prop} (h : m.Coherent strict) {term : TypeTerm}
    (hid : m.type? id = some term) (height depth : ℕ) (relation : Option Relation) :
    m.ancestryWithin (height + 1) depth relation id = do
      let name ← m.canonicalName id
      let above ← (m.relationsAbove id).mapM fun step =>
        m.ancestryWithin height (depth + 1) (some step.1) step.2
      return { depth, relation, type := id, name } :: above.flatten := by
  rw [ancestryWithin]
  cases term with
  | declared decl args =>
    obtain ⟨d, hd⟩ := h.declaration?_of_declared hid
    have happlied : m.applied? id = some d := applied?_eq_some_iff.mpr ⟨decl, args, hid, hd⟩
    rw [type_eq_ok_iff.mpr hid, relationsAbove, happlied]
    change (do
      let name ← m.canonicalName id
      let d ← m.declaration decl
      let above ← (supertypeRelations d).mapM fun step : Relation × TypeId =>
        m.ancestryWithin height (depth + 1) (some step.1) step.2
      return ({ depth, relation, type := id, name } : Ancestor) :: above.flatten) = _
    rw [declaration_eq_ok_iff.mpr hd]
    rfl
  | _ => rw [type_eq_ok_iff.mpr hid, relationsAbove, applied?, hid]; rfl

/-- A type above which all chains of supertypes end has a list of supertypes, which is the same for
every bound that leaves room for these chains. -/
lemma Coherent.exists_ancestryWithin {strict : Prop} (h : m.Coherent strict)
    (hgrounded : m.Grounded) {height : ℕ} (hends : m.EndsWithin height id) {term : TypeTerm}
    (hid : m.type? id = some term) (depth : ℕ) (relation : Option Relation) :
    ∃ ancestry, ∀ bound, height ≤ bound →
      m.ancestryWithin bound depth relation id = .ok ancestry := by
  induction height generalizing id term depth relation with
  | zero => exact hends.elim
  | succ height ih =>
    have habove : ∀ step ∈ m.relationsAbove id, ∃ ancestry, ∀ bound, height ≤ bound →
        m.ancestryWithin bound (depth + 1) (some step.1) step.2 = .ok ancestry := by
      intro step hstep
      have hsuper : m.Supertype id step.2 := exists_mem_relationsAbove_iff.mp ⟨step.1, hstep⟩
      obtain ⟨term', hterm'⟩ := h.type?_of_supertype hsuper
      exact ih (hends step.2 hsuper) hterm' (depth + 1) (some step.1)
    obtain ⟨lists, hlists⟩ := exists_mapM_eq_ok habove
    obtain ⟨name, hname, -⟩ := h.exists_canonicalName hgrounded hid
    refine ⟨{ depth, relation, type := id, name } :: lists.flatten, fun bound hbound => ?_⟩
    obtain ⟨below, rfl⟩ : ∃ below, bound = below + 1 := ⟨bound - 1, by omega⟩
    rw [h.ancestryWithin_succ hid, hname, hlists below (by omega)]
    rfl

/-- The members of the list of supertypes stand for the routes that lead up from the type, one by
one. -/
lemma Coherent.forall₂_isAt {strict : Prop} (h : m.Coherent strict) {height depth : ℕ}
    {relation : Option Relation} {term : TypeTerm} (hid : m.type? id = some term)
    {ancestry : List Ancestor}
    (hlist : m.ancestryWithin height depth relation id = .ok ancestry) :
    List.Forall₂ (m.IsAt depth relation id) (m.routesWithin height id) ancestry := by
  induction height generalizing id term depth relation ancestry with
  | zero => cases hlist
  | succ height ih =>
    rw [h.ancestryWithin_succ hid] at hlist
    simp only [bind_eq_ok_iff, pure_eq_ok_iff] at hlist
    obtain ⟨name, hname, lists, hlists, rfl⟩ := hlist
    have hhead : m.IsAt depth relation id [] { depth, relation, type := id, name } :=
      ⟨rfl, rfl, hname⟩
    refine .cons hhead ?_
    rw [List.flatMap_def]
    refine List.rel_flatten (List.forall₂_map_left_iff.mpr ?_)
    have hsteps := (List.forall₂_and_left _ _).mpr
      ⟨fun _ => List.mem_zipIdx_iff_getElem?.mp, forall₂_zipIdx (mapM_eq_ok_iff.mp hlists) 0⟩
    refine hsteps.imp fun positioned list hstep => ?_
    obtain ⟨step, position⟩ := positioned
    obtain ⟨hposition, hlist⟩ := hstep
    have hsuper : m.Supertype id step.2 :=
      exists_mem_relationsAbove_iff.mp ⟨step.1, List.mem_of_getElem? hposition⟩
    obtain ⟨term', hterm'⟩ := h.type?_of_supertype hsuper
    refine List.forall₂_map_left_iff.mpr ((ih hterm' hlist).imp fun route ancestor hat => ?_)
    obtain ⟨hclimb, hdepth, hname⟩ := hat
    refine ⟨climb_cons_eq_some_iff.mpr ⟨_, _, hposition, hclimb⟩, ?_, hname⟩
    rw [hdepth, List.length_cons]
    omega

/-- A list has one member for each route from a type, in the order of the routes. -/
def ListsRoutes (m : Model) (id : TypeId) (ancestry : List Ancestor) : Prop :=
  ∃ routes : List (List ℕ), routes.Pairwise (· < ·) ∧
    (∀ route, route ∈ routes ↔ ∃ last, m.climb none id route = some last) ∧
    List.Forall₂ (m.IsAt 0 none id) routes ancestry

/-- The types in a list of all routes are those that supertypes lead to. -/
lemma ListsRoutes.exists_mem_iff {ancestry : List Ancestor} (h : m.ListsRoutes id ancestry)
    {above : TypeId} :
    (∃ ancestor ∈ ancestry, ancestor.type = above) ↔
      Relation.ReflTransGen m.Supertype id above := by
  obtain ⟨routes, -, hroutes, hat⟩ := h
  rw [← exists_climb_iff none]
  constructor
  · rintro ⟨ancestor, hmem, rfl⟩
    obtain ⟨route, -, hclimb, -⟩ := exists_mem_of_forall₂ hat.flip hmem
    exact ⟨route, _, hclimb⟩
  · rintro ⟨route, last, hclimb⟩
    obtain ⟨ancestor, hmem, hancestor, -⟩ :=
      exists_mem_of_forall₂ hat ((hroutes route).mpr ⟨_, hclimb⟩)
    rw [hclimb] at hancestor
    exact ⟨ancestor, hmem, (Prod.mk.inj (Option.some.inj hancestor)).2.symm⟩

/-- In the model of a document the supertypes of a declared type can be listed. -/
lemma exists_ancestry {document : Document} (h : document.build = .ok m) {decl : DeclId}
    {d : Declaration} (hd : m.declaration? decl = some d) :
    ∃ ancestry, (∀ height, m.declarations.size < height →
        m.ancestryWithin height 0 none d.selfType = .ok ancestry) ∧
      m.ListsRoutes d.selfType ancestry := by
  obtain ⟨hcoherent, hacyclic⟩ := Document.build_coherent h
  have hends : m.EndsWithin (m.declarations.size + 1) d.selfType := endsWithin_of_acyclic hacyclic _
  obtain ⟨term, hterm, -⟩ := hcoherent.usable_selfType hd
  obtain ⟨ancestry, hancestry⟩ :=
    hcoherent.exists_ancestryWithin hcoherent.grounded hends hterm 0 none
  have hroutes : m.ListsRoutes d.selfType ancestry :=
    ⟨m.routesWithin (m.declarations.size + 1) d.selfType, pairwise_routesWithin .., fun _ =>
      mem_routesWithin_iff hends le_rfl, hcoherent.forall₂_isAt hterm (hancestry _ le_rfl)⟩
  exact ⟨ancestry, fun height hheight => hancestry height hheight, hroutes⟩

end Model

namespace Command

open Model

end Command

end ParcelCompanion
