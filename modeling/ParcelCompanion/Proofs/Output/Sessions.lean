import ParcelCompanion.Proofs.Lists
import ParcelCompanion.Proofs.Output.Memory

/-!
# Sessions with a store

One session with a store is the life of one unit: it is created under a name, bytes are written to
it piece by piece, and it is closed or dropped.  A name is taken from the creation on, and a unit is
kept when it is closed, so the names that are taken and the units that are kept go apart.  What comes
of any sequence of sessions is told by the log of what became of each.
-/

namespace ParcelCompanion.UnitStore

/-- What is done with one unit. -/
structure Session where
  name : String
  origin : DeclId
  /-- The bytes that are written, piece by piece. -/
  chunks : List ByteArray
  /-- Whether the unit is closed in the end.  Otherwise it is dropped. -/
  closes : Bool

/-- What becomes of a unit. -/
inductive Fate where
  /-- It is not created. -/
  | refused (fault : OutputFault)
  | dropped
  /-- It is closed, and the store keeps it. -/
  | kept
  /-- It is created, and writing or closing it fails. -/
  | failed (fault : OutputFault)
  deriving DecidableEq, Repr

/-- Whether the unit was created. -/
def Fate.isCreated : Fate → Bool
  | refused _ => false
  | _ => true

namespace Session

/-- All bytes that are written. -/
def contents (session : Session) : ByteArray :=
  session.chunks.foldl (· ++ ·) ByteArray.empty

/-- Closes the unit or drops it. -/
def conclude (session : Session) (written : Draft) : StateM UnitStore Fate := do
  if session.closes then
    match ← (close written).run with
    | .ok () => return .kept
    | .error fault => return .failed fault
  else return .dropped

/-- Carries out a session. -/
def perform (session : Session) : StateM UnitStore Fate := do
  match ← (create session.name session.origin).run with
  | .error fault => return .refused fault
  | .ok opened =>
    match ← (session.chunks.foldlM write opened).run with
    | .error fault => return .failed fault
    | .ok written => session.conclude written

/-- Carries out sessions one after the other, and notes what becomes of each. -/
def performAll (sessions : List Session) : StateM UnitStore (List (Session × Fate)) :=
  sessions.mapM fun session => do return (session, ← session.perform)

/-! ### One session -/

variable {α β : Type} {session : Session} {store : UnitStore}

/-- What becomes of a unit that was created. -/
def fate (session : Session) : Fate :=
  if session.closes then
    match Utf8.decode session.contents with
    | .ok _ => .kept
    | .error fault => .failed (.notText fault)
  else .dropped

/-- The unit that is kept of a session, if it is created. -/
def unit? (session : Session) : Option GeneratedUnit :=
  if session.closes then
    (Utf8.decode session.contents).toOption.map fun text => ⟨session.name, session.origin, text⟩
  else none

/-- Writing piece by piece puts the pieces together. -/
lemma foldlM_write_run (chunks : List ByteArray) (draft : Draft) (store : UnitStore) :
    (chunks.foldlM write draft).run.run store =
      (.ok { draft with contents := chunks.foldl (· ++ ·) draft.contents }, store) := by
  induction chunks generalizing draft with
  | nil => rfl
  | cons chunk chunks ih => exact ih { draft with contents := draft.contents ++ chunk }

lemma stateM_bind_run (step : StateM UnitStore α) (next : α → StateM UnitStore β) (store : UnitStore) :
    (step >>= next).run store = (next (step.run store).1).run (step.run store).2 :=
  rfl

/-- In the end a unit is kept if it is closed and its bytes are a text. -/
lemma conclude_run (session : Session) (store : UnitStore) :
    (session.conclude ⟨session.name, session.origin, session.contents⟩).run store =
      (session.fate, { store with units := store.units ++ session.unit?.toArray }) := by
  have hclose := close_run ⟨session.name, session.origin, session.contents⟩ store
  simp only at hclose
  rw [conclude, fate, unit?]
  cases session.closes with
  | false =>
    simp only [Bool.false_eq_true, if_false, Option.toArray_none, Array.append_empty]
    rfl
  | true =>
    simp only [if_true]
    rw [stateM_bind_run, hclose]
    cases Utf8.decode session.contents <;> rfl

/-- A session creates its unit unless the name is taken, and adds what is kept of it. -/
lemma perform_run (session : Session) (store : UnitStore) :
    session.perform.run store =
      if store.taken.contains session.name then (.refused (.recreated session.name), store)
      else (session.fate, {
        units := store.units ++ session.unit?.toArray
        taken := store.taken.insert session.name }) := by
  rw [perform, stateM_bind_run, create_run]
  cases store.taken.contains session.name with
  | true => rfl
  | false =>
    simp only [Bool.false_eq_true, if_false]
    rw [stateM_bind_run, foldlM_write_run]
    exact conclude_run session _

/-- The unit has the name and the origin of the session, and its text has the bytes. -/
def Records (session : Session) (unit : GeneratedUnit) : Prop :=
  unit.name = session.name ∧ unit.origin = session.origin ∧ unit.text.toUTF8 = session.contents

lemma isCreated_fate (session : Session) : session.fate.isCreated = true := by
  rw [fate]
  cases session.closes with
  | false => rfl
  | true => cases Utf8.decode session.contents <;> rfl

/-- What is closed is kept when its bytes are a text, and nothing is kept of anything else. -/
lemma fate_cases (session : Session) :
    (session.fate = .kept ∧ session.closes = true ∧
        ∃ unit, session.unit? = some unit ∧ session.Records unit) ∨
      session.fate ≠ .kept ∧ session.unit? = none ∧
        ¬(session.closes = true ∧ ∃ text : String, text.toUTF8 = session.contents) := by
  rw [fate, unit?]
  cases session.closes with
  | false => exact Or.inr ⟨nofun, rfl, fun h => nomatch h.1⟩
  | true =>
    cases hdecode : Utf8.decode session.contents with
    | ok text => exact Or.inl ⟨rfl, rfl, _, rfl, rfl, rfl, decode_eq_ok_iff.mp hdecode⟩
    | error fault =>
      refine Or.inr ⟨nofun, rfl, fun ⟨_, text, htext⟩ => ?_⟩
      exact nomatch hdecode.symm.trans (decode_eq_ok_iff.mpr htext)

end Session

/-! ### Sequences of sessions -/

open Session

/-- A unit of this name was created. -/
def Created (log : List (Session × Fate)) (name : String) : Prop :=
  ∃ entry ∈ log, entry.1.name = name ∧ entry.2.isCreated = true

/-- The log tells what the store holds. -/
structure Accounts (log : List (Session × Fate)) (store : UnitStore) : Prop where
  /-- The names that are taken are those of the units that were created, closed or not. -/
  taken : ∀ name, store.taken.contains name = true ↔ Created log name
  /-- The store has recorded the units that it kept, in order. -/
  units : List.Forall₂ (fun entry unit => entry.1.Records unit)
    (log.filter fun entry => entry.2 = .kept) store.units.toList
  /-- It kept those that were closed with a text for contents. -/
  kept : ∀ entry ∈ log, entry.2 = .kept ↔
    entry.2.isCreated = true ∧ entry.1.closes = true ∧
      ∃ text : String, text.toUTF8 = entry.1.contents
  nodup : (store.units.toList.map GeneratedUnit.name).Nodup

variable {log : List (Session × Fate)} {store : UnitStore} {session : Session} {fate : Fate}
  {name : String}

lemma created_concat_iff :
    Created (log ++ [(session, fate)]) name ↔
      Created log name ∨ session.name = name ∧ fate.isCreated = true := by
  simp [Created, or_and_right, exists_or]

namespace Accounts

lemma nil : Accounts [] {} := by
  refine ⟨fun name => ?_, .nil, nofun, List.nodup_nil⟩
  simp [Created]

/-- A unit that was kept has the name of one that was created. -/
lemma created_of_mem (h : Accounts log store) {unit : GeneratedUnit}
    (hunit : unit ∈ store.units.toList) : Created log unit.name := by
  obtain ⟨entry, hentry, hname, -⟩ := exists_mem_of_forall₂ h.units.flip hunit
  obtain ⟨hmem, hkept⟩ := List.mem_filter.mp hentry
  exact ⟨entry, hmem, hname.symm, of_decide_eq_true hkept ▸ rfl⟩

/-- A session that is refused changes nothing. -/
lemma refuse (h : Accounts log store) (session : Session) (fault : OutputFault) :
    Accounts (log ++ [(session, .refused fault)]) store where
  taken name := by
    rw [h.taken, created_concat_iff]
    exact ⟨Or.inl, fun hcreated => hcreated.elim id fun hrefused => nomatch hrefused.2⟩
  units := by
    rw [List.filter_append]
    exact (List.append_nil _).symm ▸ h.units
  kept entry hentry := by
    rcases List.mem_append.mp hentry with hold | hnew
    · exact h.kept entry hold
    · obtain rfl := List.mem_singleton.mp hnew
      exact ⟨nofun, fun hcreated => nomatch hcreated.1⟩
  nodup := h.nodup

/-- A session under a new name takes the name, and its unit is kept if it should be. -/
lemma accept (h : Accounts log store) (hname : ¬Created log session.name) :
    Accounts (log ++ [(session, session.fate)])
      { units := store.units ++ session.unit?.toArray, taken := store.taken.insert session.name } where
  taken name := by
    rw [created_concat_iff, ← h.taken, Std.TreeSet.contains_insert]
    by_cases heq : session.name = name
    · simp [heq, isCreated_fate]
    · simp [heq]
  units := by
    rw [List.filter_append, Array.toList_append]
    refine List.rel_append h.units ?_
    rcases session.fate_cases with ⟨hkept, -, unit, hunit, hrecords⟩ | ⟨hnot, hunit, -⟩
    · simpa [hkept, hunit] using hrecords
    · simp [hnot, hunit]
  kept entry hentry := by
    rcases List.mem_append.mp hentry with hold | hnew
    · exact h.kept entry hold
    · obtain rfl := List.mem_singleton.mp hnew
      rcases session.fate_cases with ⟨hkept, hcloses, unit, -, -, -, htext⟩ | ⟨hnot, -, hclosed⟩
      · exact ⟨fun _ => ⟨session.isCreated_fate, hcloses, _, htext⟩, fun _ => hkept⟩
      · exact ⟨fun hkept => absurd hkept hnot, fun hclosed' => absurd hclosed'.2 hclosed⟩
  nodup := by
    rw [Array.toList_append, List.map_append]
    rcases session.fate_cases with ⟨-, -, unit, hunit, hrecords⟩ | ⟨-, hunit, -⟩
    · have hnew : unit.name ∉ store.units.toList.map GeneratedUnit.name := by
        intro hmem
        obtain ⟨old, hold, hsame⟩ := List.mem_map.mp hmem
        have hcreated := h.created_of_mem hold
        rw [hsame, hrecords.1] at hcreated
        exact hname hcreated
      rw [hunit]
      exact List.nodup_append.mpr ⟨h.nodup, List.nodup_singleton _, by simpa using hnew⟩
    · rw [hunit]
      simpa using h.nodup

/-- The next session is refused exactly when a unit of its name was created before, closed or not,
and then it changes nothing.  Only a unit that is kept is recorded. -/
lemma perform (h : Accounts log store) (next : Session) :
    Accounts (log ++ [(next, (next.perform.run store).1)]) (next.perform.run store).2 ∧
      ((next.perform.run store).1.isCreated = false ↔ Created log next.name) ∧
      ((next.perform.run store).1.isCreated = false →
        next.perform.run store = (.refused (.recreated next.name), store)) ∧
      ((next.perform.run store).1 ≠ .kept → (next.perform.run store).2.units = store.units) := by
  rw [perform_run]
  by_cases hname : store.taken.contains next.name = true
  · rw [if_pos hname]
    exact ⟨h.refuse next _, ⟨fun _ => (h.taken _).mp hname, fun _ => rfl⟩, fun _ => rfl, fun _ => rfl⟩
  · have hcreated := mt (h.taken next.name).mpr hname
    rw [if_neg hname]
    refine ⟨h.accept hcreated, ?_, ?_, fun hnot => ?_⟩
    · simp [next.isCreated_fate, hcreated]
    · intro hfalse
      rw [next.isCreated_fate] at hfalse
      exact nomatch hfalse
    · rcases next.fate_cases with ⟨hkept, -⟩ | ⟨-, hunit, -⟩
      · exact absurd hkept hnot
      · rw [hunit]
        exact Array.append_empty

lemma performAll (h : Accounts log store) (sessions : List Session) :
    ((performAll sessions).run store).1.map Prod.fst = sessions ∧
      Accounts (log ++ ((performAll sessions).run store).1) ((performAll sessions).run store).2 := by
  induction sessions generalizing log store with
  | nil => exact ⟨rfl, (List.append_nil log).symm ▸ h⟩
  | cons session sessions ih =>
    obtain ⟨hsessions, haccounts⟩ := ih (h.perform session).1
    rw [List.append_assoc] at haccounts
    have hrun : (Session.performAll (session :: sessions)).run store =
        ((session, (session.perform.run store).1) ::
          ((Session.performAll sessions).run (session.perform.run store).2).1,
          ((Session.performAll sessions).run (session.perform.run store).2).2) := by
      rw [Session.performAll, List.mapM_cons]
      rfl
    rw [hrun]
    exact ⟨congrArg (session :: ·) hsessions, haccounts⟩

end Accounts

/-- Whatever sessions a new store has seen, it has recorded the units that were closed with a text
for contents, in order and under different names.  The next session is refused exactly when a unit of
its name was created before, closed or not, and then it changes nothing.  Only a unit that is kept is
recorded. -/
theorem performAll_accounts (sessions : List Session) (next : Session) :
    let (log, store) := (performAll sessions).run {}
    let (fate, after) := next.perform.run store
    log.map Prod.fst = sessions ∧ Accounts log store ∧
      (fate.isCreated = false ↔ Created log next.name) ∧
      (fate.isCreated = false → fate = .refused (.recreated next.name) ∧ after = store) ∧
      (fate ≠ .kept → after.units = store.units) := by
  obtain ⟨hsessions, haccounts⟩ := Accounts.nil.performAll sessions
  obtain ⟨-, hcreated, hrefused, hrecorded⟩ := haccounts.perform next
  refine ⟨hsessions, haccounts, hcreated, fun hfalse => ?_, hrecorded⟩
  exact Prod.mk.inj (hrefused hfalse)

/-- A unit that is dropped takes its name all the same.  A character may come in two pieces, but not
one of them alone. -/
example : ((performAll [⟨"a.B", ⟨1⟩, [], false⟩, ⟨"a.B", ⟨1⟩, [], true⟩,
    ⟨"a.C", ⟨2⟩, [⟨#[0xC3]⟩, ⟨#[0xA9]⟩], true⟩, ⟨"a.D", ⟨2⟩, [⟨#[0xC3]⟩], true⟩]).run
      {}).1.map Prod.snd =
    [.dropped, .refused (.recreated "a.B"), .kept, .failed (.notText (.incomplete 0))] := by
  decide +kernel

end ParcelCompanion.UnitStore
