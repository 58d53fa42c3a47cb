import Mathlib.Data.List.Basic
import ParcelCompanion.Companion.Source
import ParcelCompanion.Proofs.Text.Dotted
import ParcelCompanion.Proofs.Text.Path

/-!
# Names of companions

A companion that has a source has a name whose segments are identifiers.  An identifier is not empty
and has neither dots nor slashes, so it is a component of a path.
-/

namespace ParcelCompanion.Companion

variable {companion : Companion} {name text : String}

/-! ### Identifiers -/

/-- Every segment of a name is an identifier. -/
def IsQualified (name : String) : Prop :=
  ∀ segment ∈ Dotted.segments name, isIdentifier segment = true

/-- What an identifier may start with, it may go on with. -/
lemma continuesIdentifier_of_startsIdentifier {c : Char} (h : startsIdentifier c = true) :
    continuesIdentifier c = true := by
  simp only [startsIdentifier, continuesIdentifier, Bool.or_eq_true] at h ⊢
  tauto

lemma continuesIdentifier_of_mem (h : isIdentifier name = true) {c : Char}
    (hc : c ∈ name.toList) : continuesIdentifier c = true := by
  rw [isIdentifier] at h
  cases hname : name.toList with
  | nil => simp [hname] at hc
  | cons d ds =>
    simp only [hname, Bool.and_eq_true, List.all_eq_true] at h
    obtain ⟨⟨hfirst, hrest⟩, -⟩ := h
    rcases List.mem_cons.mp (hname ▸ hc) with rfl | hc
    · exact continuesIdentifier_of_startsIdentifier hfirst
    · exact hrest c hc

lemma no_dot_of_isIdentifier (h : isIdentifier name = true) : '.' ∉ name.toList := fun hdot =>
  absurd (continuesIdentifier_of_mem h hdot) (by decide +kernel)

lemma isComponent_of_isIdentifier (h : isIdentifier name = true) : Path.IsComponent name where
  ne_empty := by
    rintro rfl
    exact nomatch h
  no_slash hslash := absurd (continuesIdentifier_of_mem h hslash) (by decide +kernel)

/-! ### Companions -/

/-- Only a companion whose names are identifiers has a source. -/
lemma isIdentifier_of_source (h : companion.source = .ok text) :
    ∀ name ∈ companion.identifiers, isIdentifier name = true := by
  have hfault : companion.fault? = none := by
    rw [source] at h
    cases hfault : companion.fault? with
    | none => rfl
    | some fault => simp [hfault] at h
  intro name hname
  by_cases hfields : companion.fields.isEmpty = true
  · simp [fault?, hfields] at hfault
  · have hinvalid : invalid? companion.identifiers = none := by simpa [fault?, hfields] using hfault
    simpa using List.find?_eq_none.mp hinvalid name hname

/-- The name of a companion that has a source is made of identifiers. -/
theorem isQualified_fullName (h : companion.source = .ok text) :
    IsQualified companion.fullName := by
  have hnames := isIdentifier_of_source h
  have hclass : isIdentifier companion.className = true := by
    refine hnames _ ?_
    simp [identifiers]
  have hclassName := Dotted.segments_eq_singleton (no_dot_of_isIdentifier hclass)
  intro segment hsegment
  rw [fullName] at hsegment
  by_cases hpackage : companion.package.isEmpty = true
  · rw [if_pos hpackage, hclassName, List.mem_singleton] at hsegment
    rwa [hsegment]
  · rw [if_neg hpackage, Dotted.segments_member, hclassName, List.mem_append,
      List.mem_singleton] at hsegment
    rcases hsegment with hsegment | rfl
    · refine hnames _ ?_
      simp [identifiers, hpackage, hsegment]
    · exact hclass

end ParcelCompanion.Companion
