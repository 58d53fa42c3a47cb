import Mathlib.Tactic.Common
import ParcelCompanion.Model.Edit

/-!
# What an edit does to a model

An edit on a model has an outcome: its answer or its error, together with the model that it leaves
behind.  `Ensures` states a condition on each of the two kinds of outcome, and this file gives one
rule for each way of putting edits together.  Claims about long edits are then proved along the text
of the edit, and no proof has to open the monad again.
-/

namespace ParcelCompanion.Edit

variable {α β γ : Type}

/-- The answer or error of an edit on a model, and the model that it leaves behind. -/
def apply (edit : Edit α) (m : Model) : Except ModelError α × Model :=
  edit.run.run m

/-- On the model `m` the edit either answers, and `ok` holds of the answer and the model left
behind, or it fails, and `fail` holds of the error and the model left behind. -/
def Ensures (edit : Edit α) (m : Model) (ok : α → Model → Prop)
    (fail : ModelError → Model → Prop) : Prop :=
  match edit.apply m with
  | (.ok a, m') => ok a m'
  | (.error e, m') => fail e m'

variable {edit : Edit α} {m : Model} {ok ok' : α → Model → Prop}
  {fail fail' : ModelError → Model → Prop}

/-! ### Outcomes of the single steps -/

lemma apply_bind (edit : Edit α) (next : α → Edit β) (m : Model) :
    (edit >>= next).apply m =
      match edit.apply m with
      | (.ok a, m') => (next a).apply m'
      | (.error e, m') => (.error e, m') := by
  simp only [apply, ExceptT.run_bind, StateT.run_bind]
  rcases edit.run.run m with ⟨a | e, m'⟩ <;> rfl

@[simp] lemma ensures_pure (a : α) : (pure a : Edit α).Ensures m ok fail ↔ ok a m := Iff.rfl

@[simp] lemma ensures_throw (e : ModelError) :
    (throw e : Edit α).Ensures m ok fail ↔ fail e m := Iff.rfl

@[simp] lemma ensures_get {ok : Model → Model → Prop} :
    (get : Edit Model).Ensures m ok fail ↔ ok m m := Iff.rfl

@[simp] lemma ensures_modify {ok : Unit → Model → Prop} (change : Model → Model) :
    (modify change : Edit Unit).Ensures m ok fail ↔ ok () (change m) := Iff.rfl

@[simp] lemma ensures_modifyGet (change : Model → α × Model) :
    (modifyGet change : Edit α).Ensures m ok fail ↔ ok (change m).1 (change m).2 := Iff.rfl

/-- A question to the model changes nothing. -/
@[simp] lemma ensures_liftM (answer : Except ModelError α) :
    (liftM answer : Edit α).Ensures m ok fail ↔
      (∀ a, answer = .ok a → ok a m) ∧ ∀ e, answer = .error e → fail e m := by
  cases answer with
  | ok a => exact ⟨fun h => ⟨fun _ ha => Except.ok.inj ha ▸ h, nofun⟩, fun h => h.1 a rfl⟩
  | error e => exact ⟨fun h => ⟨nofun, fun _ he => Except.error.inj he ▸ h⟩, fun h => h.2 e rfl⟩

/-! ### Outcomes of composed edits -/

@[simp] lemma ensures_bind {ok : β → Model → Prop} (next : α → Edit β) :
    (edit >>= next).Ensures m ok fail ↔
      edit.Ensures m (fun a m' => (next a).Ensures m' ok fail) fail := by
  simp only [Ensures, apply_bind]
  rcases edit.apply m with ⟨a | e, m'⟩ <;> rfl

/-- Conditions on the outcome may be weakened. -/
lemma Ensures.mono (h : edit.Ensures m ok fail) (hok : ∀ a m', ok a m' → ok' a m')
    (hfail : ∀ e m', fail e m' → fail' e m') : edit.Ensures m ok' fail' := by
  unfold Ensures at h ⊢
  rcases hr : edit.apply m with ⟨e | a, m'⟩ <;> rw [hr] at h
  · exact hfail e m' h
  · exact hok a m' h

/-- Two conditions on each kind of outcome may be joined. -/
lemma Ensures.and (h : edit.Ensures m ok fail) (h' : edit.Ensures m ok' fail') :
    edit.Ensures m (fun a m' => ok a m' ∧ ok' a m') fun e m' => fail e m' ∧ fail' e m' := by
  unfold Ensures at h h' ⊢
  rcases hr : edit.apply m with ⟨e | a, m'⟩ <;> rw [hr] at h h' <;> exact ⟨h, h'⟩

/-! ### Questions and checks

An edit that begins by asking something, or by checking several things, has changed nothing when it
fails there.
-/

lemma ensures_get_bind {next : Model → Edit α} (h : (next m).Ensures m ok fail) :
    (get >>= next : Edit α).Ensures m ok fail :=
  (ensures_bind next).mpr (ensures_get.mpr h)

lemma ensures_liftM_bind {answer : Except ModelError β} {next : β → Edit α}
    (hnext : ∀ b, answer = .ok b → (next b).Ensures m ok fail)
    (hfail : ∀ e, answer = .error e → fail e m) : (liftM answer >>= next : Edit α).Ensures m ok fail :=
  (ensures_bind next).mpr ((ensures_liftM answer).mpr ⟨hnext, hfail⟩)

/-- A check of several things that are all there is no step at all. -/
lemma check_eq_pure {answer : β → Except ModelError γ} {xs : List β}
    (h : ∀ x ∈ xs, ∃ c, answer x = .ok c) :
    (xs.forM fun x => do let _ ← answer x : Edit Unit) = pure () := by
  induction xs with
  | nil => rfl
  | cons x xs ih =>
    obtain ⟨⟨c, hc⟩, hxs⟩ := List.forall_mem_cons.mp h
    rw [List.forM_eq_forM, List.forM_cons, ← List.forM_eq_forM, ih hxs, hc]
    rfl

lemma ensures_check_bind {answer : β → Except ModelError γ} {xs : List β} {next : Unit → Edit α}
    (hnext : (∀ x ∈ xs, ∃ c, answer x = .ok c) → (next ()).Ensures m ok fail)
    (hfail : ∀ x ∈ xs, ∀ e, answer x = .error e → fail e m) :
    ((xs.forM fun x => do let _ ← answer x : Edit Unit) >>= next).Ensures m ok fail := by
  induction xs with
  | nil => exact hnext nofun
  | cons x xs ih =>
    obtain ⟨hx, hrest⟩ := List.forall_mem_cons.mp hfail
    rw [List.forM_eq_forM, List.forM_cons, ← List.forM_eq_forM, bind_assoc, bind_assoc]
    refine ensures_liftM_bind (fun c hc => ih (fun hxs => hnext ?_) hrest) hx
    exact List.forall_mem_cons.mpr ⟨⟨c, hc⟩, hxs⟩

/-! ### Declaring -/

/-- Declaring registers a name that is new and inside its package, and leaves the model as it is when
it fails. -/
lemma ensures_declare {header : Header} {ok : DeclId → Model → Prop}
    (hok : m.lookup header.name = none → Header.isInside header.packageName header.name = true →
      ok (m.insertDeclaration header.name header.packageName header.kind header.modifiers
          header.parameters).1
        (m.insertDeclaration header.name header.packageName header.kind header.modifiers
          header.parameters).2)
    (hfail : ∀ e, fail e m) : (declare header).Ensures m ok fail := by
  refine ensures_get_bind ?_
  split
  · exact hfail _
  · next hname =>
    dsimp only
    split
    · exact hfail _
    · next hinside =>
      exact (ensures_modifyGet _).mpr (hok (by simpa using hname) (by simpa using hinside))

end ParcelCompanion.Edit
