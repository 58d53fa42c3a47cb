import ParcelCompanion.Proofs.Edit.Failure

/-!
# Positions of type parameters

A type parameter is asked for, and its bounds are set, by its position in the parameter list of its
owner.  Setting bounds looks at the whole position.  Asking looks at its low 32 bits only, so that it
may find a type parameter where there is none, and then not the one at the position.  The main
statement `judgesAlike_iff` tells what both do, and at which positions they agree.
-/

namespace ParcelCompanion

open Model

namespace Edit

variable {α : Type} {edit : Edit α} {m : Model} {owner : DeclId} {d : Declaration} {index : ℕ}

/-! ### One position -/

/-- An edit may begin by asking for a type parameter.  A declaration has those at the positions below
their number. -/
lemma ensures_typeParameter_bind {next : TypeParameter → Edit α} {ok : α → Model → Prop}
    {fail : ModelError → Model → Prop} (hd : m.declaration? owner = some d)
    (hfound : ∀ p, index < d.parameters.length → (next p).Ensures m ok fail)
    (hmissing : d.parameters.length ≤ index → fail (.invalidTypeParameter d.name index) m) :
    (liftM (m.typeParameter owner index) >>= next : Edit α).Ensures m ok fail := by
  refine ensures_liftM_bind (fun p hp => ?_) fun e he => ?_
  · obtain ⟨d', hd', hparameter⟩ := typeParameter_eq_ok_iff.mp hp
    obtain rfl := Option.some.inj (hd.symm.trans hd')
    exact hfound p (List.getElem?_eq_some_iff.mp hparameter).1
  · have hbeyond : d.parameters.length ≤ index := by
      by_contra hlt
      have hthere := List.getElem?_eq_getElem (Nat.lt_of_not_le hlt)
      have hok := typeParameter_eq_ok_iff.mpr ⟨d, hd, hthere⟩
      rw [hok] at he
      cases he
    have herror : m.typeParameter owner index = .error (.invalidTypeParameter d.name index) := by
      rw [typeParameter, declaration_eq_ok_iff.mpr hd]
      simp only [bind, Except.bind, List.getElem?_eq_none hbeyond]
      rfl
    rw [herror] at he
    obtain rfl := Except.error.inj he
    exact hmissing hbeyond

/-- Asking finds the type parameter at the low 32 bits of the position. -/
lemma ensures_parameter (hm : m.Coherent False) (hd : m.declaration? owner = some d) (index : ℕ) :
    (parameter owner index).Ensures m
      (fun id m' => index % UInt32.size < d.parameters.length ∧
        m'.type? id = some (.parameter owner (index % UInt32.size)))
      fun e m' => d.parameters.length ≤ index % UInt32.size ∧
        e = .invalidTypeParameter d.name (index % UInt32.size) ∧ m' = m := by
  refine ensures_get_bind (ensures_typeParameter_bind hd (fun p hlt => ?_) fun hle => ?_)
  · exact (ensures_modifyGet _).mpr ⟨hlt, type?_intern hm.interned _⟩
  · exact ⟨hle, rfl, rfl⟩

/-- Setting bounds that are there looks at the whole position. -/
lemma ensures_setBounds (hd : m.declaration? owner = some d) (index : ℕ) {bounds : List TypeId}
    (hbounds : ∀ bound ∈ bounds, ∃ term, m.type? bound = some term) :
    (setBounds owner index bounds).Ensures m (fun _ _ => index < d.parameters.length)
      fun e m' => d.parameters.length ≤ index ∧ e = .invalidTypeParameter d.name index ∧ m' = m := by
  refine ensures_get_bind (ensures_check_bind (fun _ => ?_) fun bound hbound e he => ?_)
  · refine ensures_typeParameter_bind hd (fun p hlt => ?_) fun hle => ?_
    · exact (ensures_modify _).mpr hlt
    · exact ⟨hle, rfl, rfl⟩
  · obtain ⟨term, hterm⟩ := hbounds bound hbound
    exact nomatch (type_eq_ok_iff.mpr hterm).symm.trans he

/-! ### Both ways of judging a position -/

/-- Among `count` type parameters, asking for the one at a position and setting its bounds succeed
exactly at the positions below `count`, and asking answers the type parameter at that very position. -/
structure JudgesAlike (m : Model) (owner : DeclId) (count index : ℕ) : Prop where
  parameter : ((Edit.parameter owner index).apply m).1.isOk = true ↔ index < count
  setBounds : ∀ bounds : List TypeId, (∀ bound ∈ bounds, ∃ term, m.type? bound = some term) →
    (((Edit.setBounds owner index bounds).apply m).1.isOk = true ↔ index < count)
  same : ∀ id m', (Edit.parameter owner index).apply m = (.ok id, m') →
    m'.type? id = some (.parameter owner index)

/-- An edit that answers only if a condition holds, and fails only if it does not, succeeds exactly
when it holds. -/
lemma Ensures.isOk_iff {p : Prop} (h : edit.Ensures m (fun _ _ => p) fun _ _ => ¬p) :
    (edit.apply m).1.isOk = true ↔ p := by
  unfold Ensures at h
  rcases hr : edit.apply m with ⟨e | a, m'⟩ <;> rw [hr] at h
  · exact ⟨nofun, fun hp => absurd hp h⟩
  · exact ⟨fun _ => h, fun _ => rfl⟩

/-- Asking for a type parameter and setting its bounds judge a position alike exactly when the
position has no more than 32 bits, or its low 32 bits are beyond the type parameters. -/
lemma judgesAlike_of_coherent_iff (hm : m.Coherent False) (hd : m.declaration? owner = some d)
    (index : ℕ) :
    JudgesAlike m owner d.parameters.length index ↔
      index < UInt32.size ∨ d.parameters.length ≤ index % UInt32.size := by
  have hask := ensures_parameter hm hd index
  have hfinds : ((Edit.parameter owner index).apply m).1.isOk = true ↔
      index % UInt32.size < d.parameters.length :=
    (hask.mono (fun _ _ h => h.1) fun _ _ h => Nat.not_lt.mpr h.1).isOk_iff
  have hsets : ∀ bounds : List TypeId, (∀ bound ∈ bounds, ∃ term, m.type? bound = some term) →
      (((Edit.setBounds owner index bounds).apply m).1.isOk = true ↔
        index < d.parameters.length) := by
    intro bounds hbounds
    have hset := ensures_setBounds hd index hbounds
    exact (hset.mono (fun _ _ h => h) fun _ _ h => Nat.not_lt.mpr h.1).isOk_iff
  constructor
  · intro halike
    by_contra hneither
    obtain ⟨hlarge, hlow⟩ := not_or.mp hneither
    -- asking succeeds, and what it answers is at another position
    unfold Ensures at hask
    have hok := hfinds.mpr (Nat.lt_of_not_le hlow)
    rcases hr : (Edit.parameter owner index).apply m with ⟨e | id, m'⟩ <;> rw [hr] at hask hok
    · exact nomatch hok
    · have hsame := (halike.same id m' hr).symm.trans hask.2
      have hindex : index = index % UInt32.size := (TypeTerm.parameter.inj (Option.some.inj hsame)).2
      have hbits : index % UInt32.size < UInt32.size := Nat.mod_lt index (by decide)
      omega
  · intro hposition
    have hjudged : index % UInt32.size < d.parameters.length ↔ index < d.parameters.length := by
      have hle : index % UInt32.size ≤ index := Nat.mod_le index UInt32.size
      rcases hposition with hsmall | hlow
      · rw [Nat.mod_eq_of_lt hsmall]
      · omega
    refine ⟨hfinds.trans hjudged, hsets, fun id m' hr => ?_⟩
    unfold Ensures at hask
    rw [hr] at hask
    rcases hposition with hsmall | hlow
    · rw [hask.2, Nat.mod_eq_of_lt hsmall]
    · exact absurd hask.1 (Nat.not_lt.mpr hlow)

/-- Whatever was called before, asking for a type parameter of a declaration succeeds exactly when the
low 32 bits of the position are below the number of type parameters, and answers the one at these
bits, while setting bounds that are there succeeds exactly when the position itself is below that
number.  What fails names the position that it judged and changes nothing.  So the two agree, and
asking answers the type parameter at the position, exactly at the positions of 32 bits and at those
whose low 32 bits are beyond the type parameters too. -/
theorem judgesAlike_iff (calls : List Call) (hd : (afterCalls calls).declaration? owner = some d)
    (index : ℕ) :
    (JudgesAlike (afterCalls calls) owner d.parameters.length index ↔
        index < UInt32.size ∨ d.parameters.length ≤ index % UInt32.size) ∧
      (Edit.parameter owner index).Ensures (afterCalls calls)
        (fun id m => index % UInt32.size < d.parameters.length ∧
          m.type? id = some (.parameter owner (index % UInt32.size)))
        (fun e m => d.parameters.length ≤ index % UInt32.size ∧
          e = .invalidTypeParameter d.name (index % UInt32.size) ∧ m = afterCalls calls) ∧
      ∀ bounds : List TypeId,
        (∀ bound ∈ bounds, ∃ term, (afterCalls calls).type? bound = some term) →
        (Edit.setBounds owner index bounds).Ensures (afterCalls calls)
          (fun _ _ => index < d.parameters.length)
          fun e m => d.parameters.length ≤ index ∧
            e = .invalidTypeParameter d.name index ∧ m = afterCalls calls := by
  have hm := (afterCalls_coherent calls).1
  exact ⟨judgesAlike_of_coherent_iff hm hd index, ensures_parameter hm hd index,
    fun bounds hbounds => ensures_setBounds hd index hbounds⟩

/-- Of the two type parameters of the class `app.Entry`, the second is found at its position, and no
third one, also where the position has more than 32 bits. -/
theorem entry_judgesAlike : ∃ d, (afterCalls Call.entryCalls).declaration? ⟨11⟩ = some d ∧
    d.parameters.length = 2 ∧ JudgesAlike (afterCalls Call.entryCalls) ⟨11⟩ 2 1 ∧
    JudgesAlike (afterCalls Call.entryCalls) ⟨11⟩ 2 (UInt32.size + 2) := by
  have hcount : (afterCalls Call.entryCalls).arity ⟨11⟩ = some 2 := by decide +kernel
  obtain ⟨d, hd, hlength⟩ := Option.map_eq_some_iff.mp hcount
  have hinside := (judgesAlike_iff Call.entryCalls hd 1).1.mpr (Or.inl (by decide))
  have hbeyond := (judgesAlike_iff Call.entryCalls hd (UInt32.size + 2)).1.mpr
    (Or.inr (by rw [hlength]; decide))
  rw [hlength] at hinside hbeyond
  exact ⟨d, hd, hlength, hinside, hbeyond⟩

/-- At the first position of more than 32 bits the first type parameter is found, although there are
only two and no bounds can be set. -/
theorem entry_misjudged : (afterCalls Call.entryCalls).arity ⟨11⟩ = some 2 ∧
    ((Edit.parameter ⟨11⟩ UInt32.size).apply (afterCalls Call.entryCalls)).1 = .ok ⟨11⟩ ∧
    ((Edit.setBounds ⟨11⟩ UInt32.size []).apply (afterCalls Call.entryCalls)).1 =
      .error (.invalidTypeParameter "app.Entry" UInt32.size) ∧
    ¬ JudgesAlike (afterCalls Call.entryCalls) ⟨11⟩ 2 UInt32.size := by
  have hfound : ((Edit.parameter ⟨11⟩ UInt32.size).apply (afterCalls Call.entryCalls)).1 =
      .ok ⟨11⟩ := by decide +kernel
  refine ⟨by decide +kernel, hfound, by decide +kernel, fun halike => ?_⟩
  have hbelow := halike.parameter.mp (hfound ▸ rfl)
  exact absurd hbelow (by decide)

end Edit

end ParcelCompanion
