import Mathlib.Algebra.BigOperators.Group.List.Lemmas
import Mathlib.Algebra.GroupWithZero.Nat
import ParcelCompanion.Document.Build
import ParcelCompanion.Output.Memory
import ParcelCompanion.Proofs.Effect
import ParcelCompanion.Proofs.Round.Telling

/-!
# Reports balance with what is told

The counts of a round are kept on several ways through it, and what it tells is kept on others.
Here both are traced back to the verdicts on the elements and to what became of the companions.  So
every element and every companion is counted once, and nothing is counted that is not told.
-/

namespace ParcelCompanion.Round

open Model

variable {m : Model} {settings : Settings} {accepted : List (DeclId × Binding)} {targets : Targets}
  {id : ElementId}

/-! ### What is told of one element -/

/-- Whether a diagnostic is a note. -/
def isNote (diagnostic : Diagnostic) : Bool :=
  diagnostic.severity == .note

/-- All that is told of a failure are errors. -/
lemma severity_of_mem_diagnostics {failure : RoundFailure} {d : Diagnostic}
    (hd : d ∈ failure.diagnostics m) : d.severity = .error := by
  cases failure with
  | rejected element violations =>
    obtain ⟨violation, -, rfl⟩ := List.mem_map.mp hd
    cases violation <;> rfl
  | failed element marker cause =>
    obtain rfl := List.mem_singleton.mp hd
    rfl
  | emission target declaration cause =>
    obtain rfl := List.mem_singleton.mp hd
    rfl

lemma countP_isNote_diagnostics (m : Model) (failure : RoundFailure) :
    (failure.diagnostics m).countP isNote = 0 :=
  List.countP_eq_zero.mpr fun d hd => by simp [isNote, severity_of_mem_diagnostics hd]

lemma countP_isError_diagnostics (m : Model) (failure : RoundFailure) :
    (failure.diagnostics m).countP Diagnostic.isError = (failure.diagnostics m).length :=
  List.countP_eq_length.mpr fun d hd => by
    simp [Diagnostic.isError, severity_of_mem_diagnostics hd]

/-- Notes are told of an accepted element, and of its target if that is new. -/
lemma countP_isNote_told (m : Model) (settings : Settings) (seen : List DeclId) (id : ElementId) :
    ((verdict m settings id).told m settings seen id).countP isNote + seen.eraseDups.length =
      (seen ++ (m.accepted? settings id).toList.map Prod.fst).eraseDups.length +
        if (verdict m settings id).isAccepted then 1 else 0 := by
  rw [accepted?_eq]
  cases hverdict : verdict m settings id with
  | accepted target binding =>
    obtain ⟨field, d, -, -, -, hd, -⟩ :=
      accepted?_iff_accepts.mp (verdict_eq_accepted_iff.mp hverdict)
    rw [Verdict.acceptance?, Option.toList_some, List.map_singleton, eraseDups_concat, Verdict.told,
      noteOn, hd]
    by_cases hseen : target ∈ seen
    · simp [hseen, Verdict.isAccepted, isNote, fieldNote, Diagnostic.note, Nat.add_comm]
    · simp [hseen, Verdict.isAccepted, isNote, fieldNote, targetNote, Diagnostic.note]
      omega
  | rejected violations =>
    rw [Verdict.told, countP_isNote_diagnostics]
    simp [Verdict.isAccepted, Verdict.acceptance?]
  | failed cause =>
    rw [Verdict.told, countP_isNote_diagnostics]
    simp [Verdict.isAccepted, Verdict.acceptance?]

/-- Errors are told of the rules that a rejected element breaks, or of a failure. -/
lemma countP_isError_told (seen : List DeclId) (id : ElementId) :
    ((verdict m settings id).told m settings seen id).countP Diagnostic.isError =
      (if m.Rejects settings id then (m.brokenRules settings id).length else 0) +
        if (verdict m settings id).isFailed then 1 else 0 := by
  simp only [← isRejected_verdict_iff]
  cases hverdict : verdict m settings id with
  | accepted target binding =>
    have hnote : (noteOn m settings target).toList.countP Diagnostic.isError = 0 := by
      unfold noteOn
      cases m.declaration? target <;> rfl
    rw [Verdict.told, List.countP_append]
    split
    · rfl
    · rw [hnote]
      rfl
  | rejected violations =>
    obtain ⟨-, hviolations, -⟩ := verdict_eq_rejected_iff.mp hverdict
    rw [Verdict.told, countP_isError_diagnostics, ← length_of_violations hviolations]
    exact List.length_map _
  | failed cause =>
    rw [Verdict.told, countP_isError_diagnostics]
    rfl

/-! ### What is told of all elements -/

/-- A note is told of each accepted element and of each target. -/
lemma countP_isNote_toldEach (h : Collects m settings accepted targets)
    (elements : List ElementId) :
    (toldEach m settings targets elements).flatten.countP isNote +
        (accepted.map Prod.fst).eraseDups.length =
      (accepted.map Prod.fst ++ targetsOf m settings elements).eraseDups.length +
        elements.countP fun id => (verdict m settings id).isAccepted := by
  induction elements generalizing accepted targets with
  | nil => simp [toldEach, targetsOf]
  | cons id elements ih =>
    -- both sides grow by one for a target that is new, since repetitions are not counted
    have hone := countP_isNote_told m settings (accepted.map Prod.fst) id
    have hrest := ih (h.targetsAfter id)
    rw [List.map_append, List.append_assoc, ← targetsOf_cons] at hrest
    rw [toldEach, List.flatten_cons, List.countP_append, told_eq h, List.countP_cons]
    omega

/-- An error is told of each rule that a rejected element breaks, and of each failed element. -/
lemma countP_isError_toldEach (h : Collects m settings accepted targets)
    (elements : List ElementId) :
    (toldEach m settings targets elements).flatten.countP Diagnostic.isError =
      ((elements.filter (m.Rejects settings)).map fun id =>
        (m.brokenRules settings id).length).sum +
        elements.countP fun id => (verdict m settings id).isFailed := by
  induction elements generalizing accepted targets with
  | nil => rfl
  | cons id elements ih =>
    rw [toldEach, List.flatten_cons, List.countP_append, told_eq h, countP_isError_told,
      ih (h.targetsAfter id), List.countP_cons, List.filter_cons]
    by_cases hrejects : m.Rejects settings id
    · rw [if_pos hrejects, if_pos (decide_eq_true hrejects), List.map_cons, List.sum_cons]
      omega
    · have hleft : ¬ decide (m.Rejects settings id) = true := by simpa using hrejects
      rw [if_neg hrejects, if_neg hleft]
      omega

/-! ### What is told of companions -/

/-- An error is told of each companion that was not put out, and nothing of the others. -/
lemma countP_toldOfEmission (m : Model) {companions : List Companion}
    {results : List (Except EmissionFault Unit)} (h : results.length = companions.length) :
    ((companions.zip results).flatMap (toldOfEmission m)).countP isNote = 0 ∧
      ((companions.zip results).flatMap (toldOfEmission m)).countP Diagnostic.isError =
        results.countP fun result => !result.isOk := by
  induction results generalizing companions with
  | nil => simp
  | cons result results ih =>
    cases companions with
    | nil => exact nomatch h
    | cons companion companions =>
      obtain ⟨hnotes, herrors⟩ := ih (Nat.succ.inj h)
      rw [List.zip_cons_cons, List.flatMap_cons, List.countP_append, List.countP_append, hnotes,
        herrors, List.countP_cons]
      cases result with
      | ok _ => simp [toldOfEmission, Except.isOk, Except.toBool]
      | error cause =>
        rw [toldOfEmission, countP_isNote_diagnostics, countP_isError_diagnostics,
          Nat.add_comm _ (List.countP _ _)]
        exact ⟨rfl, rfl⟩

/-! ### Companions and their fields -/

lemma length_accepted (m : Model) (settings : Settings) (elements : List ElementId) :
    (elements.filterMap (m.accepted? settings)).length =
      elements.countP fun id => (verdict m settings id).isAccepted := by
  rw [List.length_filterMap_eq_countP]
  refine List.countP_congr fun id _ => ?_
  rw [accepted?_eq]
  cases verdict m settings id <;> simp [Verdict.acceptance?, Verdict.isAccepted]

/-- Every accepted element is a field of one companion. -/
lemma sum_length_fields (m : Model) (settings : Settings) (elements : List ElementId) :
    ((companionsFor m settings elements).map fun companion => companion.fields.length).sum =
      (elements.filterMap (m.accepted? settings)).length := by
  set accepted := elements.filterMap (m.accepted? settings) with haccepted
  have hcollects := takeElements_collects m settings elements
  have hfields :
      ((companionsFor m settings elements).map fun companion => companion.fields.length) =
        (accepted.map Prod.fst).eraseDups.map fun target => (accepted.map Prod.fst).count target := by
    rw [← hcollects.origins, List.map_map]
    refine List.map_congr_left fun companion hcompanion => ?_
    rw [(hcollects.companions companion hcompanion).2, Function.comp_apply, fieldsOf,
      List.length_map, List.count, List.countP_map, List.countP_eq_length_filter]
    rfl
  rw [hfields, ((eraseDups_perm_dedup _).map _).sum_eq, List.sum_map_count_dedup_eq_length,
    List.length_map]

/-- A round makes one companion for each target, and no more than there are accepted elements. -/
lemma length_companionsFor (m : Model) (settings : Settings) (elements : List ElementId) :
    (companionsFor m settings elements).length = (targetsOf m settings elements).eraseDups.length ∧
      (companionsFor m settings elements).length ≤
        elements.countP fun id => (verdict m settings id).isAccepted := by
  have horigins := congrArg List.length (takeElements_collects m settings elements).origins
  rw [List.length_map] at horigins
  refine ⟨horigins, ?_⟩
  have hle := (eraseDups_perm_dedup (targetsOf m settings elements)).length_eq.trans_le
    (List.dedup_sublist _).length_le
  rw [targetsOf, List.length_map, length_accepted] at hle
  exact horigins.trans_le hle

/-! ### The whole round -/

/-- The counts of a round and what it tells balance, with the given companions and what became of
each of them. -/
structure Balanced (m : Model) (settings : Settings) (elements : List ElementId)
    (companions : List Companion) (results : List (Except EmissionFault Unit)) (report : Report)
    (diagnostics : List Diagnostic) : Prop where
  /-- All elements are taken. -/
  taken : report.elements = elements.length
  /-- Each element is accepted, rejected or fails. -/
  judged : report.accepted + report.rejected + report.failed = elements.length
  /-- The rejected elements are those that resolve and break rules. -/
  rejected : report.rejected = (elements.filter (m.Rejects settings)).length
  /-- All companions are counted. -/
  made : report.companions = companions.length
  /-- No companion is without an accepted element. -/
  made_le : report.companions ≤ report.accepted
  /-- Each accepted element is a field of a companion. -/
  fields : (companions.map fun companion => companion.fields.length).sum = report.accepted
  /-- The companions that are put out are those that came through. -/
  emitted : report.emitted = results.countP Except.isOk
  /-- Each companion is put out or not. -/
  settled : report.emitted + report.emissionFailures = report.companions
  /-- There is a note at the start, and one on each target and each accepted element. -/
  notes : diagnostics.countP isNote = 1 + report.companions + report.accepted
  /-- There is an error for each broken rule of a rejected element, for each failed element and for
  each companion that is not put out. -/
  errors : diagnostics.countP Diagnostic.isError =
    ((elements.filter (m.Rejects settings)).map fun id => (m.brokenRules settings id).length).sum +
      report.failed + report.emissionFailures
  /-- The report has errors when some are told. -/
  hasErrors : report.hasErrors = true ↔ ∃ diagnostic ∈ diagnostics, diagnostic.isError = true

/-- Errors are told of the rules when elements are rejected. -/
lemma sum_brokenRules_pos_iff (m : Model) (settings : Settings) (elements : List ElementId) :
    0 < ((elements.filter (m.Rejects settings)).map fun id =>
        (m.brokenRules settings id).length).sum ↔
      0 < (elements.filter (m.Rejects settings)).length := by
  cases hrejected : elements.filter (m.Rejects settings) with
  | nil => rfl
  | cons id rejected =>
    have hid : id ∈ elements.filter (m.Rejects settings) := hrejected ▸ List.mem_cons_self
    obtain ⟨-, hbroken⟩ : m.Rejects settings id := of_decide_eq_true (List.mem_filter.mp hid).2
    have hpos := List.length_pos_iff.mpr hbroken
    rw [List.map_cons, List.sum_cons, List.length_cons]
    omega

lemma hasErrors_iff (report : Report) :
    report.hasErrors = true ↔ 0 < report.rejected + report.failed + report.emissionFailures := by
  simp only [Report.hasErrors, Bool.or_eq_true, decide_eq_true_eq]
  omega

section Settle

variable {elements : List ElementId} {results : List (Except EmissionFault Unit)}
  (h : results.length = (companionsFor m settings elements).length)

include h

/-- There is a note at the start, and one on each companion and each accepted element. -/
lemma countP_isNote_settle :
    (settle m settings elements results).2.countP isNote =
      1 + (companionsFor m settings elements).length +
        elements.countP fun id => (verdict m settings id).isAccepted := by
  have hnotes := countP_isNote_toldEach (collects_nil m settings) elements
  rw [List.map_nil, List.nil_append, List.eraseDups_nil, List.length_nil, Nat.add_zero] at hnotes
  have hstart : isNote startNote = true := rfl
  rw [settle_diagnostics, List.countP_cons_of_pos hstart, List.countP_append,
    (countP_toldOfEmission m h).1, hnotes, (length_companionsFor m settings elements).1]
  omega

/-- There is an error for each broken rule, each failed element and each companion that is not put
out. -/
lemma countP_isError_settle :
    (settle m settings elements results).2.countP Diagnostic.isError =
      ((elements.filter (m.Rejects settings)).map fun id =>
        (m.brokenRules settings id).length).sum +
        (elements.countP fun id => (verdict m settings id).isFailed) +
        results.countP fun result => !result.isOk := by
  have herrors := countP_isError_toldEach (collects_nil m settings) elements
  have hstart : ¬ startNote.isError = true := nofun
  rw [settle_diagnostics, List.countP_cons_of_neg hstart, List.countP_append,
    (countP_toldOfEmission m h).2, herrors]

/-- What a round settles for its companions balances. -/
lemma settle_balanced :
    Balanced m settings elements (companionsFor m settings elements) results
      (settle m settings elements results).1 (settle m settings elements results).2 := by
  have hnotes := countP_isNote_settle h
  have herrors := countP_isError_settle h
  have hrejected : (elements.countP fun id => (verdict m settings id).isRejected) =
      (elements.filter (m.Rejects settings)).length := by
    rw [List.countP_eq_length_filter]
    simp only [← isRejected_verdict_iff, Bool.decide_eq_true]
  have hfields :=
    (sum_length_fields m settings elements).trans (length_accepted m settings elements)
  have hsettled : results.countP Except.isOk + results.countP (fun result => !result.isOk) =
      results.length := by
    have hlength := List.length_eq_countP_add_countP Except.isOk (l := results)
    simp only [Bool.not_eq_true, Bool.decide_eq_false] at hlength
    exact hlength.symm
  have hrules := sum_brokenRules_pos_iff m settings elements
  have hexists : (∃ diagnostic ∈ (settle m settings elements results).2,
      diagnostic.isError = true) ↔
        0 < (settle m settings elements results).2.countP Diagnostic.isError :=
    List.countP_pos_iff.symm
  have hhasErrors := hasErrors_iff (settle m settings elements results).1
  rw [herrors] at hexists
  rw [settle_report h, takeElements_report] at hhasErrors ⊢
  simp only [countEmissions, countElements, Nat.zero_add] at hhasErrors ⊢
  refine ⟨rfl, countP_verdict m settings elements, hrejected, rfl,
    (length_companionsFor m settings elements).2, hfields, rfl, hsettled.trans h, hnotes, herrors,
    ?_⟩
  rw [hhasErrors, hexists, hrejected]
  omega

end Settle

/-- The report of a round balances with what the round tells, whatever makes the texts of the
companions and whatever effects the sink has.  The round has the effects of putting out its
companions one after the other. -/
theorem run_balanced {M : Type → Type} [Monad M] [LawfulMonad M] {unit : Type} (m : Model)
    (settings : Settings) (generate : Generator) (sink : Sink M unit)
    (elements : List ElementId) :
    Coupled (fun outcome results => Balanced m settings elements
        (companionsFor m settings elements) results outcome.1 outcome.2)
      (run m settings generate sink elements)
      ((companionsFor m settings elements).mapM (emit generate sink)) := by
  rw [run_eq]
  exact (yields_mapM_length (emit generate sink) _).coupled_map fun results hresults =>
    settle_balanced hresults

/-- Two classes with a field that breaks no rule, and an interface with a static field, which breaks
two rules. -/
def ledger : Document where
  declarations := [
    { name := "app.Ledger"
      fields := [{ name := "owner", type := "String" }] },
    { name := "app.Entry"
      fields := [{ name := "amount", type := "int" }] },
    { name := "app.Book"
      kind := .interfaceType
      fields := [{ name := "title", type := "String", modifiers := [.static] }] }]

/-- The elements of `ledger`, one of them twice, and one that is not there. -/
def ledgerElements : List ElementId :=
  [⟨1⟩, ⟨0⟩, ⟨99⟩, ⟨2⟩, ⟨1⟩]

/-- A generator that has no text for entries. -/
def bookkeeper : Generator := fun companion =>
  if companion.target = "app.Entry" then .error (.noFields companion.className)
  else .ok companion.target

/-- The round over `ledgerElements` rejects one element for two rules and fails for one, and it puts
out one of two companions. -/
theorem ledger_balanced : ∃ m, ledger.build = .ok m ∧
    let outcome := (run m {} bookkeeper UnitStore.sink ledgerElements).run {}
    let results := ((companionsFor m {} ledgerElements).mapM
      (emit bookkeeper UnitStore.sink)).run {}
    outcome.1.1 = ⟨5, 3, 1, 1, 2, 1, 1⟩ ∧
      (outcome.1.2.countP isNote, outcome.1.2.countP Diagnostic.isError) = (6, 4) ∧
      Balanced m {} ledgerElements (companionsFor m {} ledgerElements) results.1 outcome.1.1
        outcome.1.2 ∧
      outcome.2 = results.2 := by
  obtain ⟨m, hbuild, hcounts⟩ : ∃ m, ledger.build = .ok m ∧
      (((run m {} bookkeeper UnitStore.sink ledgerElements).run {}).1.1,
        ((run m {} bookkeeper UnitStore.sink ledgerElements).run {}).1.2.countP isNote,
        ((run m {} bookkeeper UnitStore.sink ledgerElements).run {}).1.2.countP
          Diagnostic.isError) = (⟨5, 3, 1, 1, 2, 1, 1⟩, 6, 4) :=
    exists_ok_of_toOption_map (by decide +kernel)
  obtain ⟨hreport, hdiagnostics⟩ := Prod.mk.inj hcounts
  obtain ⟨hbalanced, hstore⟩ :=
    (run_balanced m {} bookkeeper UnitStore.sink ledgerElements).run {}
  exact ⟨m, hbuild, hreport, hdiagnostics, hbalanced, hstore⟩

end ParcelCompanion.Round
