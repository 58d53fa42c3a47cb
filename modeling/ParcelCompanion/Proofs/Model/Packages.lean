import ParcelCompanion.Proofs.Edit.Completion
import ParcelCompanion.Proofs.Model.Finish
import ParcelCompanion.Proofs.Text.Dotted

/-!
# Declarations inside their packages

A declaration is only registered under a name that is inside its package, and what is done to it
later leaves its name and its package alone.  So in every model that calls have made of the platform,
the name of a declaration is that of its package, a dot, and its relative name, unless the package is
the default package.
-/

namespace ParcelCompanion

open Edit Model

/-! ### Names inside packages -/

variable {package name rest : String}

/-- The relative name of what is inside a package is what follows the dot. -/
lemma relativeName_member (hpackage : package ≠ "") :
    relativeName package (Dotted.member package rest) = rest := by
  rw [relativeName, if_neg (mt String.isEmpty_iff.mp hpackage),
    Dotted.inside?_eq_some_iff.mpr rfl, Option.getD_some]

lemma relativeName_default (name : String) : relativeName "" name = name :=
  if_pos rfl

/-- The relative name is the end of the name. -/
lemma relativeName_suffix (package name : String) :
    (relativeName package name).toList <:+ name.toList := by
  unfold relativeName
  split
  · exact List.suffix_rfl
  · cases hrest : Dotted.inside? package name with
    | none => exact List.suffix_rfl
    | some rest =>
      rw [Dotted.inside?_eq_some_iff.mp hrest, Dotted.toList_member, Option.getD_some]
      exact (List.suffix_cons '.' rest.toList).trans (List.suffix_append _ _)

/-- A name is inside a package if the package is the default package or if the name is that of the
package, a dot, and a relative name that is not empty. -/
lemma Header.isInside_iff :
    isInside package name = true ↔ package = "" ∨
      relativeName package name ≠ "" ∧ name = Dotted.member package (relativeName package name) := by
  rw [isInside, Bool.or_eq_true, String.isEmpty_iff]
  by_cases hpackage : package = ""
  · simp [hpackage]
  simp only [hpackage, false_or]
  constructor
  · intro h
    split at h
    · next rest hrest =>
      obtain rfl := Dotted.inside?_eq_some_iff.mp hrest
      rw [relativeName_member hpackage]
      refine ⟨?_, rfl⟩
      rintro rfl
      exact nomatch h
    · exact nomatch h
  · rintro ⟨hne, hname⟩
    rw [Dotted.inside?_eq_some_iff.mpr hname]
    simpa [String.isEmpty_iff] using hne

/-- Names inside a package are the same if their relative names are. -/
lemma Header.eq_of_relativeName_eq {other : String} (hname : isInside package name = true)
    (hother : isInside package other = true)
    (h : relativeName package name = relativeName package other) : name = other := by
  rcases isInside_iff.mp hname with rfl | ⟨-, hname⟩
  · rwa [relativeName_default, relativeName_default] at h
  rcases isInside_iff.mp hother with rfl | ⟨-, hother⟩
  · rwa [relativeName_default, relativeName_default] at h
  rw [hname, hother, h]

namespace Model

variable {m m' : Model}

/-- The declarations of a model are inside their packages. -/
def Housed (m : Model) : Prop :=
  ∀ id d, m.declaration? id = some d → Header.isInside d.package d.name = true

lemma housed_platform : platform.Housed := by
  have hall : ∀ d ∈ platform.declarations.toList, Header.isInside d.package d.name = true := by
    decide +kernel
  exact fun id d hd => hall d (mem_of_declaration? hd)

/-- Whether a declaration is inside its package does not depend on what it refers to. -/
lemma Housed.of_extends (h : m.Housed) (hext : m.Extends m')
    (hsize : m'.declarations.size = m.declarations.size) : m'.Housed := by
  intro id d' hd'
  have hindex : id.index < m.declarations.size := hsize ▸ index_lt_of_declaration? hd'
  have hd : m.declaration? id = some m.declarations[id.index] := Array.getElem?_eq_getElem hindex
  obtain ⟨d'', hd'', hbare⟩ := hext.declaration? hd
  obtain rfl := Option.some.inj (hd'.symm.trans hd'')
  rw [Declaration.package_eq_of_bare hbare, Declaration.name_eq_of_bare hbare]
  exact h id _ hd

lemma Housed.insertDeclaration (h : m.Housed) (hname : Header.isInside package name = true)
    (kind : DeclKind) (modifiers : Modifiers) (parameters : List String) :
    (m.insertDeclaration name package kind modifiers parameters).2.Housed := by
  rw [insertDeclaration_eq]
  intro id d hd
  rw [declaration?_pushDeclaration, declaration?, (internSelfType_frame m _ _).1] at hd
  split at hd
  · obtain rfl := Option.some.inj hd
    exact hname
  · exact h id d hd

end Model

/-! ### Calls -/

/-- Two models have the same number of declarations. -/
def Model.SameSize (m m' : Model) : Prop :=
  m'.declarations.size = m.declarations.size

/-- Nothing that completes a declaration adds another one. -/
lemma Model.SameSize.follows (decl : DeclId) : Follows (fun _ => True) SameSize decl where
  inherited := WrittenType.inherited_true
  refl _ := rfl
  trans _ _ _ h h' := h'.trans h
  intern m term _ := congrArg Array.size (intern_frame m term).1
  unresolved m _ _ _ _ _ := congrArg Array.size (intern_frame m _).1
  modify _ _ _ := Array.size_modify
  insert _ _ _ := rfl

namespace Call

variable {m : Model}

/-- Only a call that declares adds a declaration. -/
lemma leads_perform (call : Call) (hcall : ∀ header, call ≠ .declare header) :
    call.perform.Leads SameSize m := by
  have hdrop {α : Type} {edit : Edit α} (h : edit.Leads SameSize m) :
      (do let _ ← edit : Edit Unit).Leads SameSize m :=
    h.bind (SameSize.follows object) fun _ _ => leads_pure (SameSize.follows object) ()
  have hintern (term : TypeTerm) : (Edit.intern term).Leads SameSize m :=
    (ensures_modifyGet _).mpr (congrArg Array.size (intern_frame m term).1)
  cases call with
  | declare header => exact absurd rfl (hcall header)
  | primitive kind => exact hdrop (hintern _)
  | declared decl args => exact hdrop (leads_declared (SameSize.follows decl) decl args)
  | parameter owner index => exact hdrop (leads_parameter (SameSize.follows owner) owner index)
  | array element => exact hdrop (hintern _)
  | wildcard upper lower => exact hdrop (hintern _)
  | unresolved name => exact hdrop (hintern _)
  | setSuperclass decl superclass => exact leads_setSuperclass (SameSize.follows decl) superclass
  | addInterface decl interface => exact leads_addInterface (SameSize.follows decl) interface
  | setBounds owner index bounds => exact leads_setBounds (SameSize.follows owner) index bounds
  | addField field => exact hdrop (leads_addField (SameSize.follows field.enclosing) rfl)
  | resolve context type => exact hdrop (leads_resolve (SameSize.follows context) type trivial)
  | resolveText context text => exact hdrop (leads_resolveText (SameSize.follows context) text)

/-- One call keeps declarations inside their packages. -/
lemma run_housed (hm : m.Coherent False) (h : m.Housed) (call : Call) : (call.run m).Housed := by
  by_cases hcall : ∃ header, call = .declare header
  · obtain ⟨header, rfl⟩ := hcall
    have hdeclare : (Edit.declare header).Ensures m (fun _ m' => m'.Housed) fun _ m' => m'.Housed :=
      ensures_declare (fun _ hname => h.insertDeclaration hname _ _ _) fun _ => h
    exact run_of_ensures ((ensures_bind _).mpr hdeclare)
  · have hsize : m.SameSize (call.run m) :=
      run_of_ensures (call.leads_perform fun header heq => hcall ⟨header, heq⟩)
    exact h.of_extends (call.run_coherent hm).2 hsize

end Call

namespace Model

/-- Whatever is called, declarations are inside their packages. -/
lemma housed_afterCalls (calls : List Call) : (afterCalls calls).Housed := by
  induction calls using List.reverseRecOn with
  | nil => exact housed_platform
  | append_singleton calls call ih =>
    rw [afterCalls, List.foldl_append]
    exact Call.run_housed (afterCalls_coherent calls).1 ih call

/-- In a finished model, whatever was called to build it, declarations are inside their packages. -/
lemma housed_of_finish {calls : List Call} {m : Model}
    (hfinish : (afterCalls calls).finish = .ok m) : m.Housed := by
  have hredeclares := redeclares_of_finish hfinish
  refine (housed_afterCalls calls).of_extends hredeclares.toExtends ?_
  simpa using congrArg Array.size hredeclares.declarations

end Model

end ParcelCompanion
