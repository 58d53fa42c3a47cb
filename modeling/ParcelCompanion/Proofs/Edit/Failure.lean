import ParcelCompanion.Proofs.Edit.Settling

/-!
# Calls that fail

A call may fail after some of its checks have passed.  A call that declares, completes or names
something directly does nothing before its last check, so that it leaves the model as it was.
Resolution stores the parts of a type before the whole, and a part may be at fault: what it has
stored by then stays stored, and there is nothing else to be seen of it.
-/

namespace ParcelCompanion

open Model

namespace Edit

variable {α β γ : Type} {edit : Edit α} {m : Model}

/-- If the edit fails, it leaves the model as it was. -/
def Atomic (edit : Edit α) (m : Model) : Prop :=
  edit.Ensures m (fun _ _ => True) fun _ m' => m' = m

/-! ### Putting edits together -/

/-- What never fails is atomic. -/
lemma atomic_modifyGet (change : Model → α × Model) : (modifyGet change : Edit α).Atomic m :=
  (ensures_modifyGet change).mpr trivial

lemma atomic_modify (change : Model → Model) : (modify change : Edit Unit).Atomic m :=
  (ensures_modify change).mpr trivial

lemma atomic_get_bind {next : Model → Edit α} (h : (next m).Atomic m) :
    (get >>= next : Edit α).Atomic m :=
  ensures_get_bind h

lemma atomic_liftM_bind {answer : Except ModelError β} {next : β → Edit α}
    (h : ∀ b, (next b).Atomic m) : (liftM answer >>= next : Edit α).Atomic m :=
  ensures_liftM_bind (fun b _ => h b) fun _ _ => rfl

lemma atomic_check_bind {answer : β → Except ModelError γ} {xs : List β} {next : Unit → Edit α}
    (h : (next ()).Atomic m) :
    ((xs.forM fun x => do let _ ← answer x : Edit Unit) >>= next).Atomic m :=
  ensures_check_bind (fun _ => h) fun _ _ _ _ => rfl

lemma Atomic.drop (h : edit.Atomic m) : (do let _ ← edit : Edit Unit).Atomic m :=
  (ensures_bind _).mpr h

lemma Atomic.eq_of_error (h : edit.Atomic m) {e : ModelError} (hfail : (edit.apply m).1 = .error e) :
    (edit.apply m).2 = m := by
  unfold Atomic Ensures at h
  rcases hr : edit.apply m with ⟨e' | a, m'⟩ <;> rw [hr] at h hfail
  · exact h
  · exact nomatch hfail

/-! ### The steps of building a model -/

lemma atomic_declare (header : Header) : (declare header).Atomic m :=
  ensures_declare (fun _ _ => trivial) fun _ => rfl

lemma atomic_declared (decl : DeclId) (args : List TypeId) : (declared decl args).Atomic m :=
  atomic_get_bind (atomic_liftM_bind fun _ => atomic_check_bind (atomic_modifyGet _))

lemma atomic_parameter (owner : DeclId) (index : ℕ) : (parameter owner index).Atomic m :=
  atomic_get_bind (atomic_liftM_bind fun _ => atomic_modifyGet _)

lemma atomic_setSuperclass (decl : DeclId) (superclass : TypeId) :
    (setSuperclass decl superclass).Atomic m :=
  atomic_get_bind (atomic_liftM_bind fun _ => atomic_liftM_bind fun _ => atomic_modify _)

lemma atomic_addInterface (decl : DeclId) (interface : TypeId) :
    (addInterface decl interface).Atomic m :=
  atomic_get_bind (atomic_liftM_bind fun _ => atomic_liftM_bind fun _ => atomic_modify _)

lemma atomic_setBounds (owner : DeclId) (index : ℕ) (bounds : List TypeId) :
    (setBounds owner index bounds).Atomic m :=
  atomic_get_bind (atomic_check_bind (atomic_liftM_bind fun _ => atomic_modify _))

lemma atomic_addField (field : Field) : (addField field).Atomic m :=
  atomic_get_bind (atomic_liftM_bind fun _ => atomic_liftM_bind fun _ => atomic_modifyGet _)

end Edit

namespace Call

open Edit

variable {m : Model} {call : Call}

/-- Whether a call resolves a written type or a text. -/
def resolves : Call → Bool
  | resolve _ _ | resolveText _ _ => true
  | _ => false

lemma atomic_perform (hcall : call.resolves = false) : call.perform.Atomic m := by
  cases call with
  | declare header => exact (atomic_declare header).drop
  | primitive kind => exact (atomic_modifyGet _).drop
  | declared decl args => exact (atomic_declared decl args).drop
  | parameter owner index => exact (atomic_parameter owner index).drop
  | array element => exact (atomic_modifyGet _).drop
  | wildcard upper lower => exact (atomic_modifyGet _).drop
  | unresolved name => exact (atomic_modifyGet _).drop
  | setSuperclass decl superclass => exact atomic_setSuperclass decl superclass
  | addInterface decl interface => exact atomic_addInterface decl interface
  | setBounds owner index bounds => exact atomic_setBounds owner index bounds
  | addField field => exact (atomic_addField field).drop
  | resolve context type => exact nomatch hcall
  | resolveText context text => exact nomatch hcall

lemma run_gains (hm : m.Coherent False) (hcall : call.resolves = true) : m.Gains (call.run m) := by
  cases call with
  | resolve context type =>
    exact run_of_ensures ((ensures_bind _).mpr ((settles_resolve context type).gains hm))
  | resolveText context text =>
    exact run_of_ensures ((ensures_bind _).mpr ((settles_resolveText context text).gains hm))
  | _ => exact nomatch hcall

/-- Whatever was called before, a call that fails leaves the model as it was, and if it is one that
resolves, it may have stored types whose components are there. -/
theorem run_of_error (calls : List Call) {call : Call} {e : ModelError}
    (hfail : (call.perform.apply (afterCalls calls)).1 = .error e) :
    (call.resolves = false → call.run (afterCalls calls) = afterCalls calls) ∧
      (call.resolves = true → (afterCalls calls).Gains (call.run (afterCalls calls))) :=
  ⟨fun hcall => (atomic_perform hcall).eq_of_error hfail,
    run_gains (afterCalls_coherent calls).1⟩

/-- A class with two type parameters. -/
def entryCalls : List Call :=
  [declare { name := "app.Entry", parameters := ["K", "V"] }]

/-- Setting the bounds of a third type parameter of `app.Entry`, which has two, changes nothing.
After a text whose second argument is at fault was resolved, the array and the wildcard of its first
argument are in the model. -/
theorem entry_undamaged :
    (setBounds ⟨11⟩ 2 [⟨0⟩]).run (afterCalls entryCalls) = afterCalls entryCalls ∧
      (afterCalls entryCalls).Gains
        ((resolveText ⟨11⟩ "Entry<? extends V[], Entry<V>>").run (afterCalls entryCalls)) ∧
      ((resolveText ⟨11⟩ "Entry<? extends V[], Entry<V>>").run (afterCalls entryCalls)).types.toList =
        (afterCalls entryCalls).types.toList ++ [.array ⟨12⟩, .wildcard (some ⟨14⟩) none] := by
  have hbounds : ((setBounds ⟨11⟩ 2 [⟨0⟩]).perform.apply (afterCalls entryCalls)).1 =
      .error (.invalidTypeParameter "app.Entry" 2) := by
    decide +kernel
  have htext : ((resolveText ⟨11⟩ "Entry<? extends V[], Entry<V>>").perform.apply
      (afterCalls entryCalls)).1 = .error (.invalidArgumentCount "app.Entry" 2 1) := by
    decide +kernel
  refine ⟨(run_of_error entryCalls hbounds).1 rfl, (run_of_error entryCalls htext).2 rfl, ?_⟩
  decide +kernel

end Call

end ParcelCompanion
