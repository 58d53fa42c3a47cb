import ParcelCompanion.Proofs.Edit.Resolution
import ParcelCompanion.Proofs.Model.Platform

/-!
# Sequences of calls

A model under construction is what a sequence of calls has made of the platform.  The calls may come
in any order and with any numbers, and a call that fails does not end the sequence.  Every such
model is coherent in the weak degree and still holds the platform.
-/

namespace ParcelCompanion

open Model

/-- A call that may change a model under construction. -/
inductive Call where
  | declare (header : Header)
  | primitive (kind : Primitive)
  | declared (decl : DeclId) (args : List TypeId)
  | parameter (owner : DeclId) (index : ℕ)
  | array (element : TypeId)
  | wildcard (upper lower : Option TypeId)
  | unresolved (name : String)
  | setSuperclass (decl : DeclId) (superclass : TypeId)
  | addInterface (decl : DeclId) (interface : TypeId)
  | setBounds (owner : DeclId) (index : ℕ) (bounds : List TypeId)
  | addField (field : Field)
  | resolve (context : DeclId) (type : WrittenType)
  | resolveText (context : DeclId) (text : String)
  deriving Repr

namespace Call

/-- The edit that a call asks for.  Its answer does not matter to the model. -/
def perform : Call → Edit Unit
  | declare header => do let _ ← Edit.declare header
  | primitive kind => do let _ ← Edit.primitive kind
  | declared decl args => do let _ ← Edit.declared decl args
  | parameter owner index => do let _ ← Edit.parameter owner index
  | array element => do let _ ← Edit.array element
  | wildcard upper lower => do let _ ← Edit.wildcard upper lower
  | unresolved name => do let _ ← Edit.unresolved name
  | setSuperclass decl superclass => Edit.setSuperclass decl superclass
  | addInterface decl interface => Edit.addInterface decl interface
  | setBounds owner index bounds => Edit.setBounds owner index bounds
  | addField field => do let _ ← Edit.addField field
  | resolve context type => do let _ ← Edit.resolve context type
  | resolveText context text => do let _ ← Edit.resolveText context text

/-- What a call makes of a model, whether it answers or fails. -/
def run (m : Model) (call : Call) : Model :=
  (call.perform.apply m).2

end Call

/-- What a sequence of calls makes of the platform. -/
def Model.afterCalls (calls : List Call) : Model :=
  calls.foldl Call.run platform

/-! ### What calls keep -/

/-- Every call keeps models coherent in the weak degree. -/
lemma Call.keeps_perform (call : Call) (m : Model) :
    call.perform.Keeps False m fun _ _ => True := by
  cases call with
  | declare header => exact (Edit.keeps_declare header).drop
  | primitive kind => exact (Edit.keeps_primitive kind).drop
  | declared decl args => exact (Edit.keeps_declared False.elim).drop
  | parameter owner index => exact (Edit.keeps_parameter owner index).drop
  | array element => exact (Edit.keeps_array False.elim).drop
  | wildcard upper lower => exact (Edit.keeps_wildcard False.elim).drop
  | unresolved name => exact (Edit.keeps_unresolved name).drop
  | setSuperclass decl superclass => exact Edit.keeps_setSuperclass False.elim
  | addInterface decl interface => exact Edit.keeps_addInterface False.elim
  | setBounds owner index bounds => exact Edit.keeps_setBounds False.elim
  | addField field => exact (Edit.keeps_addField False.elim).drop
  | resolve context type => exact (Edit.keeps_resolve context type False.elim).drop
  | resolveText context text => exact (Edit.keeps_resolveText context text).drop

/-- What holds of the model that an edit leaves behind, whether it answers or fails, holds after the
call. -/
lemma Call.run_of_ensures {m : Model} {call : Call} {p : Model → Prop}
    (h : call.perform.Ensures m (fun _ m' => p m') fun _ m' => p m') : p (call.run m) := by
  unfold Edit.Ensures at h
  unfold Call.run
  rcases hr : call.perform.apply m with ⟨e | a, m'⟩ <;> rw [hr] at h <;> exact h

/-- One call takes a coherent model to a coherent model that extends it. -/
lemma Call.run_coherent {m : Model} (h : m.Coherent False) (call : Call) :
    (call.run m).Coherent False ∧ m.Extends (call.run m) :=
  run_of_ensures (p := fun m' => m'.Coherent False ∧ m.Extends m') <|
    (call.keeps_perform m h).mono (fun _ _ ⟨hm', hext, _⟩ => ⟨hm', hext⟩) fun _ _ => id

/-- Every sequence of calls takes a coherent model to a coherent model that extends it. -/
lemma Call.foldl_run_coherent {m : Model} (h : m.Coherent False) (calls : List Call) :
    (calls.foldl Call.run m).Coherent False ∧ m.Extends (calls.foldl Call.run m) := by
  induction calls generalizing m with
  | nil => exact ⟨h, Extends.refl m⟩
  | cons call calls ih =>
    obtain ⟨hcall, hext⟩ := call.run_coherent h
    obtain ⟨hcalls, hext'⟩ := ih hcall
    exact ⟨hcalls, hext.trans hext'⟩

/-- Whatever is called, the model is coherent in the weak degree and extends the platform. -/
lemma Model.afterCalls_coherent (calls : List Call) :
    (afterCalls calls).Coherent False ∧ platform.Extends (afterCalls calls) :=
  Call.foldl_run_coherent coherent_platform calls

end ParcelCompanion
