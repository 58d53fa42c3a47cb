import Mathlib.Tactic.Common
import ParcelCompanion.Output.Memory

/-!
# Putting units into memory

A store keeps a unit as it is, unless a unit of its name was created before.
-/

namespace ParcelCompanion.UnitStore

/-- The store after a unit was put. -/
def added (store : UnitStore) (unit : GeneratedUnit) : UnitStore where
  units := store.units.push unit
  taken := store.taken.insert unit.name

/-- Bytes are read as the text that has them, if there is one. -/
lemma decode_eq_ok_iff {bytes : ByteArray} {text : String} :
    Utf8.decode bytes = .ok text ↔ text.toUTF8 = bytes := by
  rw [Utf8.decode]
  constructor
  · intro h
    split at h
    · next text' hread =>
      obtain rfl := Except.ok.inj h
      unfold String.fromUTF8? at hread
      split at hread
      · exact Option.some.inj hread ▸ rfl
      · exact nomatch hread
    · exact nomatch h
  · rintro rfl
    rw [String.fromUTF8?, String.toUTF8_eq_toByteArray, dif_pos text.isValidUTF8]
    rfl

/-! ### Steps with a store -/

variable {α β : Type}

/-- A step that fails leaves the next one out. -/
lemma run_bind (step : ExceptT OutputFault (StateM UnitStore) α)
    (next : α → ExceptT OutputFault (StateM UnitStore) β) (store : UnitStore) :
    (step >>= next).run.run store =
      match step.run.run store with
      | (.ok a, store) => (next a).run.run store
      | (.error fault, store) => (.error fault, store) := by
  simp only [ExceptT.run_bind, StateT.run_bind]
  rcases step.run.run store with ⟨fault | a, store⟩ <;> rfl

/-- A unit is created unless its name is taken. -/
lemma create_run (name : String) (origin : DeclId) (store : UnitStore) :
    (create name origin).run.run store =
      if store.taken.contains name then (.error (.recreated name), store)
      else (.ok ⟨name, origin, ByteArray.empty⟩, { store with taken := store.taken.insert name }) := by
  have hget (next : UnitStore → ExceptT OutputFault (StateM UnitStore) Draft) :
      (get >>= next).run.run store = (next store).run.run store := rfl
  rw [create, hget]
  cases store.taken.contains name <;> rfl

lemma close_run (draft : Draft) (store : UnitStore) :
    (close draft).run.run store =
      match Utf8.decode draft.contents with
      | .ok text => (.ok (), { store with units := store.units.push ⟨draft.name, draft.origin, text⟩ })
      | .error fault => (.error (.notText fault), store) := by
  rw [close]
  cases Utf8.decode draft.contents <;> rfl

/-- A unit whose name is not taken is kept. -/
theorem put_run (store : UnitStore) (name : String) (origin : DeclId) (text : String) :
    (sink.put name origin text).run.run store =
      if store.taken.contains name then (.error (.recreated name), store)
      else (.ok (), store.added ⟨name, origin, text⟩) := by
  have hcreate : sink.create name origin = create name origin := rfl
  rw [Sink.put, run_bind, hcreate, create_run]
  cases store.taken.contains name with
  | true => rfl
  | false =>
    change (close ⟨name, origin, ByteArray.empty ++ text.toUTF8⟩).run.run _ = _
    rw [close_run, ByteArray.empty_append, decode_eq_ok_iff.mpr rfl]
    rfl

end ParcelCompanion.UnitStore
