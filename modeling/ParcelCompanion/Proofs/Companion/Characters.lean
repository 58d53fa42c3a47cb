import ParcelCompanion.Companion.Source
import ParcelCompanion.Proofs.Text.Dotted
import ParcelCompanion.Proofs.Written.Printing

/-!
# The characters of names and of types

Names are made of the characters of identifiers and of dots, and the canonical names of types of
these and a few marks.  None of them ends a line, and no name has a mark in it.
-/

namespace ParcelCompanion

open Companion (continuesIdentifier)

variable {a b name text : String}

/-! ### Characters -/

/-- Whether names are made of the character: identifiers are, or it is a dot. -/
def isNameChar (c : Char) : Bool :=
  continuesIdentifier c || c == '.'

/-- Whether the canonical names of types are made of the character. -/
def isTypeChar (c : Char) : Bool :=
  isNameChar c || [',', '<', '>', '?', '[', ']', ' '].contains c

/-- A text is made of the characters of names. -/
def IsNameText (text : String) : Prop :=
  ∀ c ∈ text.toList, isNameChar c = true

/-- A text is made of the characters of types. -/
def IsTypeText (text : String) : Prop :=
  ∀ c ∈ text.toList, isTypeChar c = true

instance : Decidable (IsNameText text) :=
  decidable_of_iff (text.toList.all isNameChar = true) List.all_eq_true

instance : Decidable (IsTypeText text) :=
  decidable_of_iff (text.toList.all isTypeChar = true) List.all_eq_true

lemma IsNameText.isTypeText (h : IsNameText text) : IsTypeText text := fun c hc => by
  rw [isTypeChar, h c hc, Bool.true_or]

lemma isNameText_append_iff : IsNameText (a ++ b) ↔ IsNameText a ∧ IsNameText b := by
  simp only [IsNameText, String.toList_append, List.mem_append, or_imp, forall_and]

lemma isTypeText_append_iff : IsTypeText (a ++ b) ↔ IsTypeText a ∧ IsTypeText b := by
  simp only [IsTypeText, String.toList_append, List.mem_append, or_imp, forall_and]

/-- Types with separators between them are made of the same characters as the types. -/
lemma isTypeText_intercalate {separator : String} (hseparator : IsTypeText separator)
    {texts : List String} (h : ∀ text ∈ texts, IsTypeText text) :
    IsTypeText (separator.intercalate texts) := by
  induction texts with
  | nil =>
    rw [String.intercalate_nil]
    decide +kernel
  | cons text rest ih =>
    rw [List.forall_mem_cons] at h
    cases rest with
    | nil =>
      rw [String.intercalate_singleton]
      exact h.1
    | cons next rest =>
      rw [String.intercalate_cons_cons, isTypeText_append_iff, isTypeText_append_iff]
      exact ⟨⟨h.1, hseparator⟩, ih h.2⟩

lemma isTypeText_applied {args : List String} (hname : IsTypeText name)
    (hargs : ∀ arg ∈ args, IsTypeText arg) :
    IsTypeText (name ++ "<" ++ String.intercalate "," args ++ ">") := by
  rw [isTypeText_append_iff, isTypeText_append_iff, isTypeText_append_iff]
  exact ⟨⟨⟨hname, by decide +kernel⟩, isTypeText_intercalate (by decide +kernel) hargs⟩,
    by decide +kernel⟩

lemma isTypeText_array (h : IsTypeText text) : IsTypeText (text ++ "[]") :=
  isTypeText_append_iff.mpr ⟨h, by decide +kernel⟩

lemma isTypeText_bounded (kind : BoundKind) (h : IsTypeText text) :
    IsTypeText ("? " ++ kind.keyword ++ " " ++ text) := by
  refine isTypeText_append_iff.mpr ⟨?_, h⟩
  cases kind <;> decide +kernel

lemma isTypeText_keyword (kind : Primitive) : IsTypeText kind.keyword := by
  cases kind <;> decide +kernel

/-! ### Identifiers -/

/-- A name is a single identifier, as far as its characters go. -/
def IsSimpleName (name : String) : Prop :=
  name ≠ "" ∧ ∀ c ∈ name.toList, continuesIdentifier c = true

/-- A name consists of two identifiers at least, with dots between them. -/
def IsQualifiedName (name : String) : Prop :=
  2 ≤ (Dotted.segments name).length ∧ ∀ segment ∈ Dotted.segments name, IsSimpleName segment

instance : Decidable (IsSimpleName name) :=
  decidable_of_iff (name ≠ "" ∧ name.toList.all continuesIdentifier = true)
    (and_congr_right fun _ => List.all_eq_true)

instance : Decidable (IsQualifiedName name) :=
  inferInstanceAs (Decidable (_ ∧ _))

lemma IsSimpleName.no_dot (h : IsSimpleName name) : '.' ∉ name.toList := fun hdot =>
  absurd (h.2 '.' hdot) (by decide +kernel)

/-- A name whose segments are made of the characters of identifiers is made of these and dots. -/
lemma isNameText_of_segments (h : ∀ segment ∈ Dotted.segments name,
    ∀ c ∈ segment.toList, continuesIdentifier c = true) : IsNameText name := by
  intro c hc
  rw [isNameChar, Bool.or_eq_true, beq_iff_eq]
  rcases Dotted.mem_segments hc with hdot | ⟨segment, hsegment, hmem⟩
  · exact Or.inr hdot
  · exact Or.inl (h segment hsegment c hmem)

lemma IsQualifiedName.isNameText (h : IsQualifiedName name) : IsNameText name :=
  isNameText_of_segments fun segment hsegment => (h.2 segment hsegment).2

lemma IsQualifiedName.has_dot (h : IsQualifiedName name) : '.' ∈ name.toList := by
  by_contra hdot
  have hlength := h.1
  rw [Dotted.segments_eq_singleton hdot, List.length_singleton] at hlength
  omega

/-! ### Words -/

/-- What a word of a written type may go on with, an identifier may. -/
lemma continuesIdentifier_of_continuesWord {c : Char}
    (h : WrittenType.Token.continuesWord c = true) : continuesIdentifier c = true := by
  simp only [WrittenType.Token.continuesWord, Bool.or_eq_true, beq_iff_eq] at h
  simp only [continuesIdentifier, Text.isAlphabetic, Text.isNumeric, Bool.or_eq_true, beq_iff_eq]
  tauto

lemma isNameText_of_isWord (h : WrittenType.Token.IsWord text.toList) : IsNameText text := by
  intro c hc
  have hword : WrittenType.Token.continuesWord c = true := h.forall_continuesWord c hc
  rw [isNameChar, continuesIdentifier_of_continuesWord hword, Bool.true_or]

/-- The names of written types are made of the characters of names. -/
lemma isNameText_of_isDotted (h : WrittenType.IsDotted name) : IsNameText name := by
  induction h with
  | word hword => exact isNameText_of_isWord hword
  | dotted hword _ ih =>
    refine isNameText_append_iff.mpr ⟨isNameText_append_iff.mpr ⟨?_, by decide +kernel⟩, ih⟩
    exact isNameText_of_isWord hword

end ParcelCompanion
