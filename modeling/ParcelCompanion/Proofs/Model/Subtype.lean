import ParcelCompanion.Model.CanonicalName
import ParcelCompanion.Proofs.Document.Build

/-!
# Subtypes are what the supertypes of a type reach

The check whether a type is a subtype of a target goes up from the type.  Where the hierarchy has no
circles, every chain of supertypes passes a declaration once at most and so is short, and the check
finds exactly what the chains reach.
-/

namespace ParcelCompanion.Model

variable {m : Model}

/-- A declared type has another type as the superclass or as one of the interfaces of its
declaration. -/
def Supertype (m : Model) (a b : TypeId) : Prop :=
  ∃ decl args d, m.type? a = some (.declared decl args) ∧ m.declaration? decl = some d ∧
    (d.superclass = some b ∨ b ∈ d.interfaces)

/-- A type matches a target that is its canonical name, or the name of its declaration with a
question mark for each of its arguments. -/
def Matches (m : Model) (id : TypeId) (target : String) : Prop :=
  m.canonicalName id = .ok target ∨
    ∃ decl args d, m.type? id = some (.declared decl args) ∧ m.declaration? decl = some d ∧
      0 < args.length ∧
      target.toList =
        d.name.toList ++ '<' :: [','].intercalate (List.replicate args.length ['?']) ++ ['>']

lemma wildcardForm_eq_iff {name target : String} {arity : ℕ} :
    wildcardForm name arity = target ↔
      target.toList =
        name.toList ++ '<' :: [','].intercalate (List.replicate arity ['?']) ++ ['>'] := by
  rw [← String.toList_inj, wildcardForm, eq_comm]
  simp

/-- The supertypes of a type are there. -/
lemma Coherent.type?_of_supertype {strict : Prop} (h : m.Coherent strict) {a b : TypeId}
    (hab : m.Supertype a b) : ∃ term, m.type? b = some term := by
  obtain ⟨decl, args, d, -, hd, hb⟩ := hab
  obtain ⟨term, hterm, -⟩ := h.usable_of_mem_supertypes hd (Declaration.mem_supertypes.mpr hb)
  exact ⟨term, hterm⟩

/-! ### Chains of supertypes -/

/-- Every chain of supertypes from a type has fewer than `height` steps. -/
def EndsWithin (m : Model) : ℕ → TypeId → Prop
  | 0, _ => False
  | height + 1, id => ∀ above, m.Supertype id above → m.EndsWithin height above

/-- From a type whose chains of supertypes end, no chain goes on forever. -/
lemma EndsWithin.acc {height : ℕ} {id : TypeId} (h : m.EndsWithin height id) :
    Acc (fun above id => m.Supertype id above) id := by
  induction height generalizing id with
  | zero => exact h.elim
  | succ height ih => exact .intro id fun above habove => ih (h above habove)

/-- The declarations on a path lead to its end. -/
lemma IsPath.transGen {path : List DeclId} {id : DeclId} (h : m.IsPath (id :: path)) :
    ∀ p ∈ path, Relation.TransGen m.DirectSuper p id := by
  induction path generalizing id with
  | nil => exact nofun
  | cons next path ih =>
    obtain ⟨hnext, hrest⟩ := List.isChain_cons_cons.mp h
    refine List.forall_mem_cons.mpr ⟨.single hnext, fun p hp => ?_⟩
    exact (ih hrest p hp).tail hnext

/-- A chain of supertypes draws a path of declarations behind it, on which none comes twice. -/
lemma endsWithin_of_path (hacyclic : ∀ id, ¬ Relation.TransGen m.DirectSuper id id) {height : ℕ}
    {path : List DeclId} {id : TypeId} (hnodup : path.Nodup)
    (hdecls : ∀ p ∈ path, ∃ d, m.declaration? p = some d)
    (hpath : ∀ decl args, m.type? id = some (.declared decl args) → m.IsPath (decl :: path))
    (hheight : m.declarations.size < height + path.length) : m.EndsWithin height id := by
  induction height generalizing path id with
  | zero =>
    have hlength := length_le_of_nodup hnodup hdecls
    omega
  | succ height ih =>
    rintro above ⟨decl, args, d, hid, hd, habove⟩
    have hdecl := hpath decl args hid
    have hnew : decl ∉ path := fun hmem => hacyclic decl (hdecl.transGen decl hmem)
    refine ih (List.nodup_cons.mpr ⟨hnew, hnodup⟩) (List.forall_mem_cons.mpr ⟨⟨d, hd⟩, hdecls⟩)
      (fun next args' hnext => ?_) (by rw [List.length_cons]; omega)
    exact List.isChain_cons_cons.mpr ⟨⟨d, hd, above, args', habove, hnext⟩, hdecl⟩

/-- Without circles, chains of supertypes have at most as many steps as there are declarations. -/
lemma endsWithin_of_acyclic (hacyclic : ∀ id, ¬ Relation.TransGen m.DirectSuper id id)
    (id : TypeId) : m.EndsWithin (m.declarations.size + 1) id :=
  endsWithin_of_path hacyclic List.nodup_nil nofun (fun _ _ _ => List.isChain_singleton _) (by simp)

/-! ### The check -/

/-- A number that stands for no type has no canonical name. -/
lemma canonicalName_of_type?_eq_none {id : TypeId} (hid : m.type? id = none) :
    m.canonicalName id = .error (.unknownType id) := by
  have htype : m.type id = .error (.unknownType id) := by rw [type, hid]
  rw [canonicalName, nameWithin, htype]
  rfl

lemma supertype_iff_of_declared {id above : TypeId} {decl : DeclId} {args : List TypeId}
    {d : Declaration} (hid : m.type? id = some (.declared decl args))
    (hd : m.declaration? decl = some d) : m.Supertype id above ↔ above ∈ d.supertypes := by
  rw [Declaration.mem_supertypes]
  constructor
  · rintro ⟨decl', args', d', hid', hd', habove⟩
    rw [hid, Option.some.injEq, TypeTerm.declared.injEq] at hid'
    obtain ⟨rfl, rfl⟩ := hid'
    obtain rfl := Option.some.inj (hd.symm.trans hd')
    exact habove
  · exact fun habove => ⟨decl, args, d, hid, hd, habove⟩

lemma matches_iff_of_declared {id : TypeId} {decl : DeclId} {args : List TypeId}
    {d : Declaration} {name target : String} (hid : m.type? id = some (.declared decl args))
    (hd : m.declaration? decl = some d) (hname : m.canonicalName id = .ok name) :
    m.Matches id target ↔
      name = target ∨ (0 < args.length ∧ wildcardForm d.name args.length = target) := by
  rw [Matches, hname, Except.ok.injEq, wildcardForm_eq_iff]
  refine or_congr_right ⟨?_, fun hform => ⟨decl, args, d, hid, hd, hform⟩⟩
  rintro ⟨decl', args', d', hid', hd', hform⟩
  rw [hid, Option.some.injEq, TypeTerm.declared.injEq] at hid'
  obtain ⟨rfl, rfl⟩ := hid'
  obtain rfl := Option.some.inj (hd.symm.trans hd')
  exact hform

/-- One step of the check: the type itself matches, or the check of a direct supertype succeeds. -/
lemma isSubtypeWithin_succ_iff (h : m.Coherent True) {target : String} {height : ℕ} {id : TypeId} :
    m.isSubtypeWithin target (height + 1) id = true ↔
      (∃ term, m.type? id = some term) ∧
        (m.Matches id target ∨
          ∃ above, m.Supertype id above ∧ m.isSubtypeWithin target height above = true) := by
  rw [isSubtypeWithin]
  cases hid : m.type? id with
  | none => simp [canonicalName_of_type?_eq_none hid]
  | some term =>
    obtain ⟨name, hname, -⟩ := h.exists_canonicalName h.grounded hid
    rw [hname]
    cases term with
    | declared decl args =>
      obtain ⟨d, hd⟩ := h.declaration?_of_declared hid
      have hargs : (!args.isEmpty) = true ↔ 0 < args.length := by
        rw [Bool.not_eq_true', ← Bool.not_eq_true, List.isEmpty_iff, List.length_pos_iff]
      simp only [hd, Bool.or_eq_true, Bool.and_eq_true, beq_iff_eq, List.any_eq_true, hargs,
        matches_iff_of_declared hid hd hname, supertype_iff_of_declared hid hd, or_assoc]
      exact ⟨fun hcheck => ⟨⟨_, rfl⟩, hcheck⟩, And.right⟩
    | _ => simp [Matches, Supertype, hid, hname]

/-- The check finds what the supertypes of a type reach, provided that it goes high enough. -/
lemma isSubtypeWithin_iff (h : m.Coherent True) {target : String} {height bound : ℕ} {id : TypeId}
    (hends : m.EndsWithin height id) (hbound : height ≤ bound) :
    m.isSubtypeWithin target bound id = true ↔
      (∃ term, m.type? id = some term) ∧
        ∃ above, Relation.ReflTransGen m.Supertype id above ∧ m.Matches above target := by
  induction height generalizing bound id with
  | zero => exact hends.elim
  | succ height ih =>
    obtain ⟨below, rfl⟩ : ∃ below, bound = below + 1 := ⟨bound - 1, by omega⟩
    rw [isSubtypeWithin_succ_iff h]
    refine and_congr_right fun _ => ?_
    constructor
    · rintro (hmatch | ⟨next, hnext, hsub⟩)
      · exact ⟨id, .refl, hmatch⟩
      · obtain ⟨-, above, habove, hmatch⟩ := (ih (hends next hnext) (by omega)).mp hsub
        exact ⟨above, .head hnext habove, hmatch⟩
    · rintro ⟨above, habove, hmatch⟩
      rcases habove.cases_head with rfl | ⟨next, hnext, hrest⟩
      · exact Or.inl hmatch
      · have hthere := h.type?_of_supertype hnext
        refine Or.inr ⟨next, hnext, (ih (hends next hnext) (by omega)).mpr ?_⟩
        exact ⟨hthere, above, hrest, hmatch⟩

/-- In the model of a document no chain of supertypes goes on forever, the check does not depend on
the bound that is put on its height, and it succeeds exactly for the types of the model from which
direct supertypes lead to one that matches the target. -/
theorem isSubtype_iff_reaches {document : Document} (h : document.build = .ok m) (id : TypeId)
    (target : String) :
    WellFounded (fun above id => m.Supertype id above) ∧
      (∀ height, m.declarations.size < height →
        m.isSubtypeWithin target height id = m.isSubtype id target) ∧
      (m.isSubtype id target = true ↔
        (∃ term, m.type? id = some term) ∧
          ∃ above, Relation.ReflTransGen m.Supertype id above ∧ m.Matches above target) := by
  obtain ⟨hcoherent, hacyclic⟩ := Document.build_coherent h
  have hends := endsWithin_of_acyclic hacyclic
  have hcheck : ∀ height, m.declarations.size < height →
      (m.isSubtypeWithin target height id = true ↔
        (∃ term, m.type? id = some term) ∧
          ∃ above, Relation.ReflTransGen m.Supertype id above ∧ m.Matches above target) :=
    fun height hheight => isSubtypeWithin_iff hcoherent (hends id) hheight
  refine ⟨⟨fun id => (hends id).acc⟩, fun height hheight => ?_, hcheck _ (Nat.lt_succ_self _)⟩
  exact Bool.eq_iff_iff.mpr ((hcheck height hheight).trans (hcheck _ (Nat.lt_succ_self _)).symm)

/-- The class `app.Words` reaches an instance of `app.Source` through its superclass. -/
theorem words_reaches_source : ∃ m, Document.boxes.build = .ok m ∧
    ∃ above, Relation.ReflTransGen m.Supertype ⟨15⟩ above ∧ m.Matches above "app.Source<?>" := by
  obtain ⟨m, hbuild, hsub⟩ : ∃ m, Document.boxes.build = .ok m ∧
      m.isSubtype ⟨15⟩ "app.Source<?>" = true :=
    exists_ok_of_toOption_map (by decide +kernel)
  exact ⟨m, hbuild, ((isSubtype_iff_reaches hbuild _ _).2.2.mp hsub).2⟩

end ParcelCompanion.Model
