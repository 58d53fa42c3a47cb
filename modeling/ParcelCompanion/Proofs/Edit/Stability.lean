import ParcelCompanion.Proofs.Edit.Failure

/-!
# Resolution is stable until the next declaration

A text may be resolved again and again.  As long as no call in between declares something, what was
answered first is answered every time, or the same error comes up, and from the second time on the
model stays as it is.  Bounds, supertypes, fields and other types make no difference.
-/

namespace ParcelCompanion

open Model

namespace Call

variable {m : Model} {call : Call}

/-- Whether the call declares something and succeeds. -/
def declares (m : Model) (call : Call) : Bool :=
  match call with
  | declare _ => (call.perform.apply m).1.isOk
  | _ => false

/-- When the calls of a sequence are run on a model one after the other, none of them declares
anything. -/
def NoneDeclares : Model → List Call → Prop
  | _, [] => True
  | m, call :: calls => call.declares m = false ∧ NoneDeclares (call.run m) calls

/-- A call that declares nothing leaves the declarations in place. -/
lemma continues_run (hm : m.Coherent False) (hcall : call.declares m = false) :
    m.Continues (call.run m) := by
  obtain ⟨hcoherent, hext⟩ := call.run_coherent hm
  by_cases hdeclare : ∃ header, call = declare header
  · obtain ⟨header, rfl⟩ := hdeclare
    cases hanswer : ((declare header).perform.apply m).1 with
    | error e =>
      have hsame : (declare header).run m = m := (Edit.atomic_declare header).drop.eq_of_error hanswer
      rw [hsame]
      exact Continues.refl hm
    | ok a =>
      rw [declares, hanswer] at hcall
      exact nomatch hcall
  · have hsize : m.SameSize (call.run m) :=
      run_of_ensures (call.leads_perform fun header heq => hdeclare ⟨header, heq⟩)
    exact ⟨hcoherent, hext, hsize⟩

/-- A sequence of calls of which none declares anything leaves the declarations in place. -/
lemma NoneDeclares.continues_foldl {calls : List Call} (h : NoneDeclares m calls)
    (hm : m.Coherent False) : m.Continues (calls.foldl run m) := by
  induction calls generalizing m with
  | nil => exact Continues.refl hm
  | cons call calls ih =>
    have hcall : m.Continues (call.run m) := continues_run hm h.1
    exact hcall.trans (ih h.2 hcall.coherent)

end Call

namespace Edit

variable {α : Type} {edit : Edit α} {m m' : Model} {answer : Except ModelError α}
  {context : DeclId}

/-- An edit that settles has the same result on every model that continues the one it left behind. -/
lemma Settles.apply_later {q : α → Model → Prop} (h : edit.Settles m q) (hm : m.Coherent False)
    (hfirst : edit.apply m = (answer, m')) :
    m.Gains m' ∧ ∀ later, m'.Continues later → edit.apply later = (answer, later) := by
  have hensures := h hm
  unfold Ensures at hensures
  rw [hfirst] at hensures
  cases answer with
  | ok a => exact ⟨hensures.1, hensures.2.2⟩
  | error e => exact hensures

/-- An edit that settles has the same result again, at once and after any calls that declare
nothing, and running it again changes nothing. -/
lemma Settles.stable {q : α → Model → Prop} (h : edit.Settles m q) (hm : m.Coherent False)
    (hfirst : edit.apply m = (answer, m')) {more : List Call} (hmore : Call.NoneDeclares m' more) :
    edit.apply m' = (answer, m') ∧
      edit.apply (more.foldl Call.run m') = (answer, more.foldl Call.run m') := by
  obtain ⟨hgains, hlater⟩ := h.apply_later hm hfirst
  exact ⟨hlater m' (Continues.refl hgains.coherent),
    hlater _ (hmore.continues_foldl hgains.coherent)⟩

/-- Whatever was called before, a written type that is resolved again has the same result, at once
and after any calls that declare nothing, and resolving it again changes nothing. -/
theorem resolve_stable (calls more : List Call) {type : WrittenType}
    {answer : Except ModelError TypeId}
    (hfirst : (resolve context type).apply (afterCalls calls) = (answer, m))
    (hmore : Call.NoneDeclares m more) :
    (resolve context type).apply m = (answer, m) ∧
      (resolve context type).apply (more.foldl Call.run m) = (answer, more.foldl Call.run m) :=
  (settles_resolve context type).stable (afterCalls_coherent calls).1 hfirst hmore

/-- Whatever was called before, a text that is resolved again has the same result, at once and after
any calls that declare nothing, and resolving it again changes nothing. -/
theorem resolveText_stable (calls more : List Call) {text : String}
    {answer : Except ModelError TypeId}
    (hfirst : (resolveText context text).apply (afterCalls calls) = (answer, m))
    (hmore : Call.NoneDeclares m more) :
    (resolveText context text).apply m = (answer, m) ∧
      (resolveText context text).apply (more.foldl Call.run m) = (answer, more.foldl Call.run m) :=
  (settles_resolveText context text).stable (afterCalls_coherent calls).1 hfirst hmore

/-- A class with one type parameter. -/
def slotCalls : List Call :=
  [.declare { name := "app.Slot", parameters := ["T"] }]

/-- Calls that give `app.Slot` a superclass, a bound and a field, that fail to declare it again, and
that resolve a text. -/
def completingCalls : List Call := [
  .setSuperclass ⟨11⟩ ⟨0⟩,
  .setBounds ⟨11⟩ 0 [⟨0⟩],
  .addField ⟨"value", ⟨11⟩, ⟨11⟩, .none, []⟩,
  .declare { name := "app.Slot" },
  .resolveText ⟨11⟩ "Other[]"]

/-- The calls `completingCalls` do not change what a text with an unknown name in it is resolved
to. -/
theorem slot_stable :
    ∃ m, (resolveText ⟨11⟩ "Slot<? extends Missing[]>").apply (afterCalls slotCalls) =
        (.ok ⟨16⟩, m) ∧
      (resolveText ⟨11⟩ "Slot<? extends Missing[]>").apply m = (.ok ⟨16⟩, m) ∧
      (resolveText ⟨11⟩ "Slot<? extends Missing[]>").apply (completingCalls.foldl Call.run m) =
        (.ok ⟨16⟩, completingCalls.foldl Call.run m) := by
  have hfirst : (resolveText ⟨11⟩ "Slot<? extends Missing[]>").apply (afterCalls slotCalls) =
      (.ok ⟨16⟩, ((resolveText ⟨11⟩ "Slot<? extends Missing[]>").apply (afterCalls slotCalls)).2) :=
    Prod.ext (by decide +kernel) rfl
  have hmore : Call.NoneDeclares
      ((resolveText ⟨11⟩ "Slot<? extends Missing[]>").apply (afterCalls slotCalls)).2
      completingCalls :=
    ⟨rfl, rfl, rfl, by decide +kernel, rfl, trivial⟩
  exact ⟨_, hfirst, resolveText_stable slotCalls completingCalls hfirst hmore⟩

/-- A text with an unknown name in it is resolved to another type once the name is declared. -/
example : ((resolveText ⟨11⟩ "Slot<? extends Missing[]>").apply
    (afterCalls (slotCalls ++ [.resolveText ⟨11⟩ "Slot<? extends Missing[]>",
      .declare { name := "app.Missing" }]))).1 ≠ .ok ⟨16⟩ := by
  decide +kernel

end Edit

end ParcelCompanion
