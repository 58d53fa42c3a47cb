import ParcelCompanion.Proofs.Written.Grammar

/-!
# Where wildcards stand in written types

The grammar of written types allows a wildcard as a type argument and nowhere else.  So the tree of
every text that is a written type has its wildcards in place: none at the root, none as the element
of an array and none as a bound.
-/

namespace ParcelCompanion.WrittenType

/-- Whether a written type is a wildcard. -/
def isWildcard : WrittenType → Bool
  | .wildcard | .bounded _ _ => true
  | _ => false

/-- No wildcard below the root of a written type stands anywhere but as a type argument. -/
inductive WellPlaced : WrittenType → Prop where
  | named {name : String} {args : List WrittenType} (h : ∀ arg ∈ args, WellPlaced arg) :
    WellPlaced (.named name args)
  | array {element : WrittenType} (helement : element.isWildcard = false)
    (h : WellPlaced element) : WellPlaced (.array element)
  | wildcard : WellPlaced .wildcard
  | bounded {kind : BoundKind} {bound : WrittenType} (hbound : bound.isWildcard = false)
    (h : WellPlaced bound) : WellPlaced (.bounded kind bound)

/-- Brackets keep the wildcards of the element in place. -/
lemma iterate_array_wellPlaced {element : WrittenType} (n : ℕ)
    (helement : element.isWildcard = false) (h : element.WellPlaced) :
    (array^[n] element).isWildcard = false ∧ (array^[n] element).WellPlaced := by
  induction n with
  | zero => exact ⟨helement, h⟩
  | succ n ih =>
    rw [Function.iterate_succ_apply']
    exact ⟨rfl, .array ih.1 ih.2⟩

/-- The wildcards of a phrase are in place, and a type is none. -/
def PhrasePlaced : Phrase → Prop
  | .name _ => True
  | .args args => ∀ arg ∈ args, arg.WellPlaced
  | .arg arg => arg.WellPlaced
  | .type type => type.isWildcard = false ∧ type.WellPlaced

/-- Every phrase that tokens derive has its wildcards in place. -/
lemma Derives.wellPlaced {phrase : Phrase} {tokens : List Token} (h : Derives phrase tokens) :
    PhrasePlaced phrase := by
  induction h with
  | word word => trivial
  | dotted word h ih => trivial
  | bare hname n ih => exact iterate_array_wellPlaced n rfl (.named nofun)
  | applied hname hargs n ihName ihArgs => exact iterate_array_wellPlaced n rfl (.named ihArgs)
  | last h ih => exact List.forall_mem_singleton.mpr ih
  | more harg hargs ihArg ihArgs => exact List.forall_mem_cons.mpr ⟨ihArg, ihArgs⟩
  | wildcard => exact .wildcard
  | bounded kind h ih => exact .bounded ih.1 ih.2
  | plain h ih => exact ih.2

/-- A text that is a written type has its wildcards in place, and none at its root. -/
theorem parse_wellPlaced {text : String} {type : WrittenType} (h : parse text = .ok type) :
    type.isWildcard = false ∧ type.WellPlaced := by
  obtain ⟨tokens, -, hderives⟩ := parse_eq_ok_iff.mp h
  exact hderives.wellPlaced

end ParcelCompanion.WrittenType
