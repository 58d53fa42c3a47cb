import ParcelCompanion.Proofs.Meaning.Completing

/-!
# The order of declarations

Without numbers, what the entries of a document do commutes: declaring an entry and declaring
another one always, and completing entries of different names once the names are settled.  So the
outline of a document does not depend on the order of its declarations.
-/

namespace ParcelCompanion

namespace ModelOutline

variable {outline outline' : ModelOutline} {names : Names}

/-! ### Declaring -/

lemma declare_eq_some_iff {header : Header} :
    outline.declare header = some outline' ↔ outline header.name = none ∧
      Header.isInside header.packageName header.name = true ∧
        outline' = outline.set header.name header.outline := by
  unfold declare
  cases outline header.name <;> cases Header.isInside header.packageName header.name <;>
    simp [eq_comm]

/-- Declarations may be exchanged with one another. -/
lemma declare_swap {a b : Header}
    (h : (outline.declare a).bind (·.declare b) = some outline') :
    (outline.declare b).bind (·.declare a) = some outline' := by
  obtain ⟨_, ha, hb⟩ := Option.bind_eq_some_iff.mp h
  obtain ⟨hnewa, hinsidea, rfl⟩ := declare_eq_some_iff.mp ha
  obtain ⟨hnewb, hinsideb, rfl⟩ := declare_eq_some_iff.mp hb
  have hne : b.name ≠ a.name := by
    intro heq
    rw [heq, set_self] at hnewb
    exact nomatch hnewb
  rw [set_of_ne _ _ hne] at hnewb
  refine Option.bind_eq_some_iff.mpr ⟨outline.set b.name b.outline, ?_, ?_⟩
  · exact declare_eq_some_iff.mpr ⟨hnewb, hinsideb, rfl⟩
  · refine declare_eq_some_iff.mpr ⟨?_, hinsidea, set_comm _ _ _ hne.symm⟩
    rw [set_of_ne _ _ hne.symm, hnewa]

lemma declare_comm (outline : ModelOutline) (a b : Header) :
    (outline.declare a).bind (·.declare b) = (outline.declare b).bind (·.declare a) :=
  Option.ext fun _ => ⟨declare_swap, declare_swap⟩

/-- Entries that can be declared one after the other have different names. -/
lemma names_ne_of_declareAll {entries : List DeclarationEntry}
    (h : entries.foldlM (fun outline entry => outline.declare entry.header) outline =
      some outline') :
    (∀ entry ∈ entries, outline entry.name = none) ∧
      entries.Pairwise fun a b => a.name ≠ b.name := by
  induction entries generalizing outline with
  | nil => exact ⟨nofun, .nil⟩
  | cons entry entries ih =>
    rw [List.foldlM_cons] at h
    obtain ⟨_, hentry, hrest⟩ := Option.bind_eq_some_iff.mp h
    obtain ⟨hnew, -, rfl⟩ := declare_eq_some_iff.mp hentry
    obtain ⟨hnews, hpairs⟩ := ih hrest
    have hne : ∀ other ∈ entries, other.name ≠ entry.name := by
      intro other hother heq
      have hnone := hnews other hother
      rw [heq] at hnone
      exact nomatch (set_self ..).symm.trans hnone
    refine ⟨List.forall_mem_cons.mpr ⟨hnew, fun other hother => ?_⟩,
      List.pairwise_cons.mpr ⟨fun other hother => (hne other hother).symm, hpairs⟩⟩
    exact (set_of_ne _ _ (hne other hother)).symm.trans (hnews other hother)

/-! ### Completing -/

lemma complete_eq_some_iff {entry : DeclarationEntry} :
    outline.complete names entry = some outline' ↔ ∃ o o', outline entry.name = some o ∧
      o.fill names entry = some o' ∧ outline' = outline.set entry.name o' := by
  simp only [complete, Option.bind_eq_bind, Option.bind_eq_some_iff, Option.pure_def,
    Option.some.injEq]
  constructor
  · rintro ⟨o, ho, o', ho', rfl⟩
    exact ⟨o, o', ho, ho', rfl⟩
  · rintro ⟨o, o', ho, ho', rfl⟩
    exact ⟨o, ho, o', ho', rfl⟩

/-- Entries of different names may be completed in either order. -/
lemma complete_swap {a b : DeclarationEntry} (hne : a.name ≠ b.name)
    (h : (outline.complete names a).bind (·.complete names b) = some outline') :
    (outline.complete names b).bind (·.complete names a) = some outline' := by
  obtain ⟨_, ha, hb⟩ := Option.bind_eq_some_iff.mp h
  obtain ⟨o, o', ho, hfill, rfl⟩ := complete_eq_some_iff.mp ha
  obtain ⟨p, p', hp, hfill', rfl⟩ := complete_eq_some_iff.mp hb
  rw [set_of_ne _ _ hne.symm] at hp
  refine Option.bind_eq_some_iff.mpr ⟨outline.set b.name p', ?_, ?_⟩
  · exact complete_eq_some_iff.mpr ⟨p, p', hp, hfill', rfl⟩
  · refine complete_eq_some_iff.mpr ⟨o, o', ?_, hfill, set_comm _ _ _ hne⟩
    rw [set_of_ne _ _ hne, ho]

lemma complete_comm (outline : ModelOutline) {a b : DeclarationEntry} (hne : a.name ≠ b.name) :
    (outline.complete names a).bind (·.complete names b) =
      (outline.complete names b).bind (·.complete names a) :=
  Option.ext fun _ => ⟨complete_swap hne, complete_swap hne.symm⟩

end ModelOutline

/-- The outline of a document does not depend on the order of its declarations. -/
theorem Document.register?_eq_of_perm {document document' : Document}
    (h : document.declarations.Perm document'.declarations) (outline : ModelOutline) :
    document.register? outline = document'.register? outline := by
  have hdeclare : document.declarations.foldlM
      (fun outline entry => outline.declare entry.header) outline =
        document'.declarations.foldlM (fun outline entry => outline.declare entry.header) outline :=
    foldlM_eq_of_perm h (List.pairwise_of_forall fun a b outline =>
      outline.declare_comm a.header b.header) outline
  unfold register?
  rw [← hdeclare]
  refine Option.bind_congr fun declared hdeclared => ?_
  obtain ⟨-, hnames⟩ := ModelOutline.names_ne_of_declareAll hdeclared
  exact foldlM_eq_of_perm h (hnames.imp fun hne outline => outline.complete_comm hne) declared

end ParcelCompanion
