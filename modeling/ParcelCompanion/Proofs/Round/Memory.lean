import ParcelCompanion.Proofs.Output.Memory
import ParcelCompanion.Proofs.Round.Elements
import ParcelCompanion.Proofs.Round.Run

/-!
# What a round puts into memory

A companion becomes a unit in memory when it has a text and its name is free.  Names are taken by
what the memory held before and by earlier companions that have texts, and by nothing else.  So what
becomes of a companion can be told from the memory before the round and from the companions before
it, while the round itself knows the memory as it is by then.
-/

namespace ParcelCompanion

namespace UnitStore

/-- The store after a companion that became a unit or failed. -/
def received (store : UnitStore) : Except EmissionFault GeneratedUnit → UnitStore
  | .ok unit => store.added unit
  | .error _ => store

/-- Units that are received come behind those that are there, in order. -/
lemma foldl_received_units (store : UnitStore)
    (results : List (Except EmissionFault GeneratedUnit)) :
    (results.foldl received store).units.toList =
      store.units.toList ++ results.filterMap Except.toOption := by
  induction results generalizing store with
  | nil => exact (List.append_nil _).symm
  | cons result results ih =>
    rw [List.foldl_cons, ih]
    cases result with
    | error cause => rfl
    | ok unit =>
      have hunits : (store.added unit).units.toList = store.units.toList ++ [unit] :=
        Array.toList_push
      rw [received, hunits, List.append_assoc]
      rfl

end UnitStore

namespace Round

variable {generate : Generator} {store : UnitStore} {companion first : Companion}
  {earlier companions : List Companion} {name : String}

/-! ### What becomes of a companion -/

/-- The full names of the companions that have texts. -/
def requested (generate : Generator) (companions : List Companion) : List String :=
  (companions.filter fun companion => (generate companion).isOk).map Companion.fullName

/-- The unit that a companion becomes in a store behind earlier companions.  There is none if the
companion has no text, or if its full name is taken in the store or was requested before. -/
def unitFrom (generate : Generator) (store : UnitStore) (earlier : List Companion)
    (companion : Companion) : Except EmissionFault GeneratedUnit :=
  match generate companion with
  | .error error => .error (.source error)
  | .ok text =>
    let name := companion.fullName
    if store.taken.contains name ∨ name ∈ requested generate earlier then
      .error (.output (.recreated name))
    else .ok ⟨name, companion.origin, text⟩

/-- The units that companions become in a store, each of them behind those before it. -/
def unitsFrom (generate : Generator) (store : UnitStore) (companions : List Companion) :
    List (Except EmissionFault GeneratedUnit) :=
  companions.mapIdx fun i companion => unitFrom generate store (companions.take i) companion

lemma requested_cons (generate : Generator) (first : Companion) (companions : List Companion) :
    requested generate (first :: companions) =
      requested generate [first] ++ requested generate companions := by
  rw [requested, requested, requested, ← List.map_append, ← List.filter_append]
  rfl

lemma unitFrom_of_no_source {error : SourceError} (h : generate companion = .error error) :
    unitFrom generate store earlier companion = .error (.source error) := by
  rw [unitFrom, h]

/-- The first companion fails if its full name is taken, and is a unit if not. -/
lemma unitFrom_nil {text : String} (h : generate companion = .ok text) :
    unitFrom generate store [] companion =
      if store.taken.contains companion.fullName then
        .error (.output (.recreated companion.fullName))
      else .ok ⟨companion.fullName, companion.origin, text⟩ := by
  simp [unitFrom, h, requested]

/-- What a round puts out into a store is the unit that the companion becomes. -/
lemma emit_run (generate : Generator) (store : UnitStore) (companion : Companion) :
    (emit generate UnitStore.sink companion).run store =
      ((unitFrom generate store [] companion).map fun _ => (),
        store.received (unitFrom generate store [] companion)) := by
  cases hgenerate : generate companion with
  | error error =>
    rw [emit_of_no_source hgenerate, unitFrom_of_no_source hgenerate]
    rfl
  | ok text =>
    rw [emit_of_source hgenerate, StateT.run_map, UnitStore.put_run, unitFrom_nil hgenerate]
    cases store.taken.contains companion.fullName <;> rfl

/-! ### Names -/

/-- A companion takes its full name if it has a text, and no name otherwise. -/
lemma taken_received :
    (store.received (unitFrom generate store [] first)).taken.contains name = true ↔
      store.taken.contains name = true ∨ name ∈ requested generate [first] := by
  cases hgenerate : generate first with
  | error error =>
    rw [unitFrom_of_no_source hgenerate, UnitStore.received]
    simp [requested, hgenerate, Except.isOk, Except.toBool]
  | ok text =>
    have hname : name ∈ requested generate [first] ↔ name = first.fullName := by
      simp [requested, hgenerate, Except.isOk, Except.toBool]
    rw [unitFrom_nil hgenerate, hname]
    cases htaken : store.taken.contains first.fullName with
    | true =>
      -- the companion fails, but the name that it asks for is taken as it is
      refine ⟨Or.inl, ?_⟩
      rintro (h | rfl)
      · exact h
      · exact htaken
    | false =>
      change (store.taken.insert first.fullName).contains name = true ↔ _
      rw [Std.TreeSet.contains_insert, Bool.or_eq_true, beq_iff_eq, Std.compare_eq_iff_eq, or_comm,
        @eq_comm _ name]

/-- A store that received a companion refuses what it refused before and what the companion asked
for, if it has a text. -/
lemma unitFrom_received :
    unitFrom generate (store.received (unitFrom generate store [] first)) earlier companion =
      unitFrom generate store (first :: earlier) companion := by
  rw [unitFrom.eq_def generate _ earlier, unitFrom.eq_def generate store (first :: earlier)]
  simp only [taken_received, requested_cons generate first earlier, List.mem_append, or_assoc]

lemma unitsFrom_cons (generate : Generator) (store : UnitStore) (first : Companion)
    (companions : List Companion) :
    unitsFrom generate store (first :: companions) =
      unitFrom generate store [] first ::
        unitsFrom generate (store.received (unitFrom generate store [] first)) companions := by
  rw [unitsFrom, List.mapIdx_cons]
  refine congrArg (_ :: ·) ?_
  simp only [List.take_succ_cons, ← unitFrom_received]
  rfl

/-! ### All companions -/

/-- Whether companions became units, without the units. -/
def withoutUnits (results : List (Except EmissionFault GeneratedUnit)) :
    List (Except EmissionFault Unit) :=
  results.map fun result => result.map fun _ => ()

/-- What a round puts out into a store are the units that its companions become. -/
lemma emissions_run (generate : Generator) (store : UnitStore) (companions : List Companion) :
    (emissions generate UnitStore.sink companions).run store =
      (withoutUnits (unitsFrom generate store companions),
        (unitsFrom generate store companions).foldl UnitStore.received store) := by
  -- the rest is put out into what the first companion has made of the store
  induction companions generalizing store with
  | nil => rfl
  | cons first companions ih =>
    rw [emissions_cons, StateT.run_bind, emit_run, unitsFrom_cons]
    change StateT.run (do
      let results ← emissions generate UnitStore.sink companions
      pure (_ :: results)) _ = _
    rw [StateT.run_bind, ih]
    rfl

/-- The names that are taken behind companions are those that were taken before them and those that
they requested. -/
lemma taken_foldl_received :
    ((unitsFrom generate store companions).foldl UnitStore.received store).taken.contains name =
        true ↔
      store.taken.contains name = true ∨ name ∈ requested generate companions := by
  induction companions generalizing store with
  | nil => simp [unitsFrom, requested]
  | cons first companions ih =>
    rw [unitsFrom_cons, List.foldl_cons, ih, taken_received, or_assoc, ← List.mem_append,
      ← requested_cons]

lemma length_unitsFrom (generate : Generator) (store : UnitStore) (companions : List Companion) :
    (unitsFrom generate store companions).length = companions.length :=
  List.length_mapIdx

/-! ### Counting -/

/-- As many companions were put out as have become units. -/
lemma countP_withoutUnits (results : List (Except EmissionFault GeneratedUnit)) :
    (withoutUnits results).countP Except.isOk = (results.filterMap Except.toOption).length := by
  rw [withoutUnits, List.countP_map, List.length_filterMap_eq_countP]
  refine List.countP_congr fun result _ => ?_
  cases result <;> exact Iff.rfl

/-- A round into memory puts out each of its companions once, in the order in which their targets
came up.  It appends the units of those that have texts and whose full names were neither taken in
the memory nor requested by an earlier companion with a text.  It counts these units, and it counts
the other companions as failures. -/
theorem run_into_memory (m : Model) (settings : Settings) (generate : Generator)
    (elements : List ElementId) (store : UnitStore) :
    ∃ (companions : List Companion) (results : List (Except EmissionFault GeneratedUnit))
      (report : Report) (diagnostics : List Diagnostic) (after : UnitStore),
      companions = companionsFor m settings elements ∧
      companions.map Companion.origin =
        ((elements.filterMap (m.accepted? settings)).map Prod.fst).eraseDups ∧
      results = unitsFrom generate store companions ∧
      run m settings generate UnitStore.sink elements =
        settle m settings elements <$> companions.mapM (emit generate UnitStore.sink) ∧
      (companions.mapM (emit generate UnitStore.sink)).run store =
        (withoutUnits results, after) ∧
      (run m settings generate UnitStore.sink elements).run store =
        ((report, diagnostics), after) ∧
      after.units.toList = store.units.toList ++ results.filterMap Except.toOption ∧
      (∀ name, after.taken.contains name = true ↔
        store.taken.contains name = true ∨ name ∈ requested generate companions) ∧
      report.emitted = (results.filterMap Except.toOption).length ∧
      report.emitted + report.emissionFailures = companions.length := by
  set companions := companionsFor m settings elements
  set results := unitsFrom generate store companions
  have hemissions := emissions_run generate store companions
  have hlength : (withoutUnits results).length = companions.length := by
    rw [withoutUnits, List.length_map]
    exact length_unitsFrom generate store companions
  rcases hsettle : settle m settings elements (withoutUnits results) with ⟨report, diagnostics⟩
  have hrun : (run m settings generate UnitStore.sink elements).run store =
      ((report, diagnostics), results.foldl UnitStore.received store) := by
    rw [run_eq, StateT.run_map, hemissions, ← hsettle]
    rfl
  have hreport : report = countEmissions (takeElements m settings elements).report
      (withoutUnits results) := by
    rw [← settle_report hlength, hsettle]
  obtain ⟨hemitted, hfailures⟩ := takeElements_emitted m settings elements
  refine ⟨companions, results, report, diagnostics, _, rfl,
    (takeElements_collects m settings elements).origins, rfl, run_eq .., hemissions, hrun,
    UnitStore.foldl_received_units store results, fun name => taken_foldl_received, ?_, ?_⟩
  · rw [hreport, ← countP_withoutUnits, countEmissions, hemitted, Nat.zero_add]
  · rw [hreport, countEmissions_total, hemitted, hfailures, Nat.zero_add, hlength]

/-- Three companions ask for one name.  The first has no text, so the second gets the name. -/
example :
    let companion (target : String) (id : ℕ) : Companion :=
      ⟨"app", "Same", target, ⟨id⟩, .delegate, []⟩
    let generate : Generator := fun companion =>
      if companion.target = "app.A" then .error (.noFields "Same") else .ok companion.target
    unitsFrom generate {} [companion "app.A" 11, companion "app.B" 12, companion "app.C" 13] =
      [.error (.source (.noFields "Same")), .ok ⟨"app.Same", ⟨12⟩, "app.B"⟩,
        .error (.output (.recreated "app.Same"))] := by
  decide +kernel

end Round

end ParcelCompanion
