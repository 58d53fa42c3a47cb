import ParcelCompanion.Model.Resolve
import ParcelCompanion.Proofs.Edit.Keeps
import ParcelCompanion.Proofs.Written.Placement

/-!
# Resolution keeps models coherent

A written type resolves to a type that is a wildcard exactly when it is one itself.  In the strict
degree resolution needs the wildcards of the written type to be in place, as they are in the tree of
every text.
-/

namespace ParcelCompanion

namespace Edit

open Model

variable {strict : Prop} {m : Model}

/-- The answer of a resolution stands for a type that is a wildcard exactly as the written type. -/
def Means (type : WrittenType) (id : TypeId) (m : Model) : Prop :=
  ∃ term, m.type? id = some term ∧ term.isWildcard = type.isWildcard

lemma Means.usable {type : WrittenType} {id : TypeId} (h : Means type id m)
    (htype : type.isWildcard = false) : m.Usable strict id := by
  obtain ⟨term, hid, hwildcard⟩ := h
  exact ⟨term, hid, fun _ => hwildcard.trans htype⟩

/-- A word that is no declaration's name resolves to a type that is no wildcard. -/
lemma keeps_resolveWord (context : DeclId) (name : String) :
    (resolveWord context name).Keeps strict m
      fun id? m' => ∀ id, id? = some id → m'.Usable True id := by
  unfold resolveWord
  split
  · next kind _ =>
    refine (keeps_primitive kind).map fun id m' hid id' hid' => ?_
    exact Option.some.inj hid' ▸ ⟨_, hid, fun _ => rfl⟩
  · refine keeps_get_bind (keeps_liftM_bind fun found _ => ?_)
    split
    · next owner index _ =>
      refine (keeps_parameter owner index).map fun id m' hid id' hid' => ?_
      exact Option.some.inj hid' ▸ ⟨_, hid, fun _ => rfl⟩
    · exact keeps_pure nofun

/-- The type that a name with arguments means when it means no primitive type and no type
parameter. -/
def resolveDeclared (context : DeclId) (name : String) (args : List WrittenType) : Edit TypeId := do
  match ← (← get).findDeclaration context name with
  | none => unresolved (WrittenType.named name args).text
  | some decl =>
    let declaration ← (← get).declaration decl
    if !args.isEmpty && args.length != declaration.parameters.length then
      throw (.invalidArgumentCount declaration.name declaration.parameters.length args.length)
    declared decl (← resolveAll context args)

/-- A name without arguments may be a word, and every name may be that of a declaration. -/
lemma resolve_named (context : DeclId) (name : String) (args : List WrittenType) :
    resolve context (.named name args) =
      (if args.isEmpty then resolveWord context name else pure none) >>= fun
        | some id => pure id
        | none => resolveDeclared context name args := by
  rw [resolve]
  split <;> rfl

/-- The arguments of a declaration are as many as it has type parameters, if there are any. -/
lemma keeps_resolveDeclared (context : DeclId) (name : String) {args : List WrittenType}
    (hargs : ∀ m : Model, (resolveAll context args).Keeps strict m
      fun ids _ => ids.length = args.length) :
    (resolveDeclared context name args).Keeps strict m (Means (.named name args)) := by
  refine keeps_get_bind (keeps_liftM_bind fun found _ => ?_)
  split
  · exact (keeps_unresolved _).mono fun id m' _ hid => ⟨_, hid, rfl⟩
  · next decl _ =>
    refine keeps_get_bind (keeps_liftM_bind fun d hd => ?_)
    dsimp only
    split
    · exact keeps_throw _
    · next hcount =>
      refine (hargs m).bind fun ids m' _ hext hlength => ?_
      refine (keeps_declared fun _ => ?_).mono fun id m'' _ hid => ⟨_, hid, rfl⟩
      have harity : m'.arity decl = some d.parameters.length := by
        refine hext.arity ?_
        rw [arity, declaration_eq_ok_iff.mp hd, Option.map_some]
      rw [harity]
      cases args with
      | nil => exact Or.inl (List.length_eq_zero_iff.mp hlength)
      | cons arg args =>
        refine Or.inr ?_
        simp only [List.isEmpty_cons, Bool.not_false, Bool.true_and, bne_iff_ne, ne_eq,
          not_not] at hcount
        rw [hlength, hcount]

mutual

/-- Resolution keeps models coherent, and its answer means the written type. -/
lemma keeps_resolve (context : DeclId) (type : WrittenType) {m : Model}
    (htype : strict → type.WellPlaced) :
    (resolve context type).Keeps strict m (Means type) := by
  match type with
  | .named name args =>
    have hargs : strict → ∀ arg ∈ args, arg.WellPlaced := by
      intro hs
      cases htype hs with
      | named h => exact h
    have hdeclared : ∀ m : Model,
        (resolveDeclared context name args).Keeps strict m (Means (.named name args)) :=
      fun _ => keeps_resolveDeclared context name fun m => keeps_resolveAll context args hargs
    rw [resolve_named]
    split
    · refine (keeps_resolveWord context name).bind fun id? m' _ _ hid => ?_
      cases id? with
      | none => exact hdeclared m'
      | some id =>
        obtain ⟨term, hterm, hproper⟩ := hid id rfl
        exact keeps_pure ⟨term, hterm, hproper trivial⟩
    · exact hdeclared m
  | .array element =>
    rw [resolve]
    have hparts : strict → element.isWildcard = false ∧ element.WellPlaced := by
      intro hs
      cases htype hs with
      | array helement h => exact ⟨helement, h⟩
    refine (keeps_resolve context element fun hs => (hparts hs).2).bind fun id m' _ _ hid => ?_
    refine (keeps_array fun hs => hid.usable (hparts hs).1).mono fun id' m'' _ hid' => ?_
    exact ⟨_, hid', rfl⟩
  | .wildcard =>
    rw [resolve]
    exact (keeps_wildcard fun _ => ⟨Or.inl rfl, by simp⟩).mono fun id m' _ hid => ⟨_, hid, rfl⟩
  | .bounded kind bound =>
    have hparts : strict → bound.isWildcard = false ∧ bound.WellPlaced := by
      intro hs
      cases htype hs with
      | bounded hbound h => exact ⟨hbound, h⟩
    cases kind <;>
      rw [resolve]
    all_goals
      refine (keeps_resolve context bound fun hs => (hparts hs).2).bind fun id m' _ _ hid => ?_
      refine (keeps_wildcard fun hs => ⟨by simp, fun b hb => ?_⟩).mono
        fun id' m'' _ hid' => ⟨_, hid', rfl⟩
      obtain rfl : b = id := by simpa using hb
      exact hid.usable (hparts hs).1
termination_by structural type

/-- Resolution of several written types answers as many times. -/
lemma keeps_resolveAll (context : DeclId) (types : List WrittenType) {m : Model}
    (htypes : strict → ∀ type ∈ types, type.WellPlaced) :
    (resolveAll context types).Keeps strict m fun ids _ => ids.length = types.length := by
  match types with
  | [] =>
    rw [resolveAll]
    exact keeps_pure rfl
  | type :: types =>
    rw [resolveAll]
    refine (keeps_resolve context type fun hs => htypes hs type List.mem_cons_self).bind
      fun id m' _ _ _ => ?_
    refine (keeps_resolveAll context types
      fun hs t ht => htypes hs t (List.mem_cons_of_mem _ ht)).bind fun ids m'' _ _ hids => ?_
    exact keeps_pure (congrArg (· + 1) hids)
termination_by structural types

end

/-- A text resolves to a type that is no wildcard. -/
lemma keeps_resolveText (context : DeclId) (text : String) :
    (resolveText context text).Keeps strict m fun id m' => m'.Usable True id := by
  unfold resolveText
  split
  · next type htype =>
    obtain ⟨hproper, hplaced⟩ := WrittenType.parse_wellPlaced htype
    exact (keeps_resolve context type fun _ => hplaced).mono fun _ _ _ hid => hid.usable hproper
  · exact keeps_throw _

end Edit

end ParcelCompanion
