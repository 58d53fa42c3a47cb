import Std.Data.TreeMap
import ParcelCompanion.Model.Primitive

/-!
# Types of a model

A model stores each of its types once, under a number, and a type refers to its components by
their numbers.  A `TypeTerm` is what is stored: the outermost constructor and those numbers.

Terms are ordered by an injective key, so that a sorted map can take a term back to its number.

Numbers and positions are natural numbers without a bound.  The words of 32 bits that would hold
them are idealized: `Model.intern`, `Model.insertDeclaration` and `Model.insertElement` never run
out of numbers, and none is given twice.  The width of a word shows in one place only, which is
`Edit.parameter`: of the position of a type parameter it keeps the low 32 bits.  Statements for
which a type parameter must be found again at its position ask for at most `UInt32.size` type
parameters in a declaration (`Model.Tidy`, `Model.Readable`), and the others keep the remainder.
-/

namespace ParcelCompanion

/-- The number of a type in its model, any natural number. -/
structure TypeId where
  index : Nat
  deriving DecidableEq, Repr

/-- The number of a declaration in its model, any natural number. -/
structure DeclId where
  index : Nat
  deriving DecidableEq, Repr

/-- The number of an element, that is a field, in its model, any natural number. -/
structure ElementId where
  index : Nat
  deriving DecidableEq, Repr

/-- A type number as messages show it. -/
def TypeId.shown (id : TypeId) : String := "TypeId(" ++ toString id.index ++ ")"

/-- A declaration number as messages show it. -/
def DeclId.shown (id : DeclId) : String := "DeclId(" ++ toString id.index ++ ")"

/-- An element number as messages show it. -/
def ElementId.shown (id : ElementId) : String := "ElementId(" ++ toString id.index ++ ")"

/-- The outermost constructor of a type, with the numbers of its components. -/
inductive TypeTerm where
  /-- A primitive type. -/
  | primitive (kind : Primitive)
  /-- A declaration applied to type arguments, or bare when there are none. -/
  | declared (decl : DeclId) (args : List TypeId)
  /-- The type parameter at a position in the parameter list of its owner. -/
  | parameter (owner : DeclId) (index : Nat)
  /-- An array. -/
  | array (element : TypeId)
  /-- A wildcard with the bounds it has. -/
  | wildcard (upper lower : Option TypeId)
  /-- A type whose name means nothing, kept as it was written. -/
  | unresolved (name : String)
  deriving DecidableEq, Repr

namespace TypeTerm

/-- The declaration that a type applies. -/
def declaration? : TypeTerm → Option DeclId
  | .declared decl _ => some decl
  | _ => none

/-- The numbers of the types that a type is made of. -/
def components : TypeTerm → List TypeId
  | .declared _ args => args
  | .array element => [element]
  | .wildcard upper lower => upper.toList ++ lower.toList
  | _ => []

/-! ### Order -/

/-- An optional number, with zero for its absence. -/
private def optionKey : Option TypeId → Nat
  | none => 0
  | some id => id.index + 1

/-- A sequence of numbers that determines the term. -/
def key : TypeTerm → List Nat
  | .primitive kind => [0, Primitive.all.idxOf kind]
  | .declared decl args => 1 :: decl.index :: args.map TypeId.index
  | .parameter owner index => [2, owner.index, index]
  | .array element => [3, element.index]
  | .wildcard upper lower => [4, optionKey upper, optionKey lower]
  | .unresolved name => 5 :: name.toList.map Char.toNat

private theorem optionKey_injective {a b : Option TypeId} (h : optionKey a = optionKey b) :
    a = b := by
  cases a with
  | none => cases b with
    | none => rfl
    | some b => simp [optionKey] at h
  | some a => cases b with
    | none => simp [optionKey] at h
    | some b =>
      cases a; cases b
      simp [optionKey] at h
      simp [h]

/-- Terms with equal keys are equal. -/
theorem key_injective {a b : TypeTerm} (h : a.key = b.key) : a = b := by
  cases a <;> cases b <;> simp [key] at h
  case primitive.primitive p q => rw [Primitive.idxOf_all_injective h]
  case declared.declared d args e args' =>
    obtain ⟨hd, ha⟩ := h
    cases d; cases e
    have inj : ∀ x y : TypeId, x.index = y.index → x = y := by
      intro x y hxy; cases x; cases y; simp at hxy; simp [hxy]
    simp at hd
    simp [hd, List.map_inj_right inj |>.mp ha]
  case parameter.parameter d i e j => cases d; cases e; simp_all
  case array.array x y => cases x; cases y; simp_all
  case wildcard.wildcard u l u' l' =>
    rw [optionKey_injective h.1, optionKey_injective h.2]
  case unresolved.unresolved s t =>
    have inj : ∀ x y : Char, x.toNat = y.toNat → x = y := by
      intro x y hxy; exact Char.ext (UInt32.toNat_inj.mp hxy)
    have hl : s.toList = t.toList := List.map_inj_right inj |>.mp h
    exact congrArg _ (String.toList_inj.mp hl)

instance : Ord TypeTerm where
  compare a b := compare a.key b.key

instance : Std.TransOrd TypeTerm where
  eq_swap {a b} := @Std.OrientedCmp.eq_swap (List Nat) compare _ a.key b.key
  isLE_trans {a b c} := @Std.TransCmp.isLE_trans (List Nat) compare _ a.key b.key c.key

instance : Std.LawfulEqOrd TypeTerm where
  compare_self {a} := @Std.ReflCmp.compare_self (List Nat) compare _ a.key
  eq_of_compare {a b} h :=
    key_injective (@Std.LawfulEqCmp.eq_of_compare (List Nat) compare _ a.key b.key h)

end TypeTerm

end ParcelCompanion
