import ParcelCompanion.Output.Memory
import ParcelCompanion.Proofs.Effect
import ParcelCompanion.Proofs.Model.Finish
import ParcelCompanion.Proofs.Round.Telling

/-!
# The whole story of a round

A round tells that it starts, then what became of each element, then which companions could not be
put out.  `TellsOf` and `TellsOfCompanion` say in each case what that is, with the code of an error
and what the error is about, and `run_narrates` says that a round tells this and nothing else.
-/

namespace ParcelCompanion.Round

open Model

/-! ### Attempts to put out companions -/

/-- A step on the way of a companion out of a round. -/
inductive Stage where
  | generation | opening | writing | closing
  deriving DecidableEq, Repr

/-- A step into a sink, whose faults are told together with the stage. -/
def atStage {m : Type → Type} [Monad m] {α : Type} (stage : Stage)
    (step : ExceptT OutputFault m α) : ExceptT (Stage × EmissionFault) m α :=
  step.adapt fun fault => (stage, .output fault)

/-- Puts out a companion, and tells at which stage that failed. -/
def attempt {m : Type → Type} [Monad m] {unit : Type} (generate : Generator) (sink : Sink m unit)
    (companion : Companion) : ExceptT (Stage × EmissionFault) m Unit := do
  let text ← liftExcept
    ((generate companion).mapError fun error => (Stage.generation, EmissionFault.source error))
  let opened ← atStage .opening (sink.create companion.fullName companion.origin)
  let written ← atStage .writing (sink.write opened text.toUTF8)
  atStage .closing (sink.close written)

section Attempts

variable {M : Type → Type} [Monad M] {unit α β : Type}

lemma atStage_run (stage : Stage) (step : ExceptT OutputFault M α) :
    (atStage stage step).run =
      Except.mapError (fun fault => (stage, .output fault)) <$> step.run :=
  rfl

variable [LawfulMonad M]

/-- Without the stage, only the fault is left. -/
lemma mapError_snd_atStage (stage : Stage) (step : ExceptT OutputFault M α) :
    Except.mapError Prod.snd <$> (atStage stage step).run =
      Except.mapError .output <$> step.run := by
  rw [atStage_run, Functor.map_map]
  refine congrArg (· <$> step.run) (funext fun result => ?_)
  cases result <;> rfl

/-- Without the stages, several steps do as they do together. -/
lemma mapError_snd_atStage_bind {stage : Stage} {step : ExceptT OutputFault M α}
    {next : α → ExceptT OutputFault M β} {next' : α → ExceptT (Stage × EmissionFault) M β}
    (h : ∀ a,
      Except.mapError Prod.snd <$> (next' a).run = Except.mapError .output <$> (next a).run) :
    Except.mapError Prod.snd <$> (atStage stage step >>= next').run =
      Except.mapError .output <$> (step >>= next).run := by
  rw [ExceptT.run_bind, ExceptT.run_bind, atStage_run, bind_map_left, map_bind, map_bind]
  refine bind_congr fun result => ?_
  cases result with
  | error fault => simp [Except.mapError]
  | ok a => exact h a

/-- What becomes of a companion is what the attempt tells, without the stage. -/
lemma emit_eq_attempt (generate : Generator) (sink : Sink M unit) (companion : Companion) :
    emit generate sink companion =
      Except.mapError Prod.snd <$> (attempt generate sink companion).run := by
  unfold attempt
  cases hsource : generate companion with
  | error error =>
    rw [emit_of_no_source hsource]
    simp [liftExcept, Except.mapError]
  | ok text =>
    rw [emit_of_source hsource, Sink.put]
    simp only [liftExcept, Except.mapError, pure_bind]
    exact (mapError_snd_atStage_bind fun opened => mapError_snd_atStage_bind fun written =>
      mapError_snd_atStage .closing (sink.close written)).symm

end Attempts

/-! ### What there is to tell -/

/-- What a round tells of an element that comes behind the elements `before`. -/
inductive TellsOf (m : Model) (settings : Settings) (before : List ElementId) (id : ElementId) :
    List Diagnostic → Prop
  /-- The first element that is accepted for a target comes with a note on the target. -/
  | first {target : DeclId} {d : Declaration} {binding : Binding}
    (haccepts : m.Accepts settings id target binding)
    (hfirst : ∀ other ∈ before, ∀ earlier, ¬ m.Accepts settings other target earlier)
    (htarget : m.declaration? target = some d) :
    TellsOf m settings before id [
      targetNote (Companion.ofTarget target d (Targets.strategyFor m settings d) settings),
      fieldNote binding]
  /-- Further elements that are accepted for a target have a note of their own. -/
  | further {target : DeclId} {binding : Binding} (haccepts : m.Accepts settings id target binding)
    (hearlier : ∃ other ∈ before, ∃ earlier, m.Accepts settings other target earlier) :
    TellsOf m settings before id [fieldNote binding]
  /-- An element that resolves and breaks rules has an error for each of them, in order. -/
  | rejected {field : Field} {enclosing : Declaration} {errors : List Diagnostic}
    (hresolves : m.Resolves id) (hfield : m.elements[id.index]? = some field)
    (henclosing : m.declaration? field.enclosing = some enclosing)
    (hbroken : Rule.brokenBy settings field enclosing ≠ [])
    (herrors : errors = (violationsOf settings id field enclosing).map (Violation.diagnostic m))
    (hblames : List.Forall₂ (fun rule error =>
      Diagnostic.Blames error rule.code (rule.anchor id field.enclosing))
      (Rule.brokenBy settings field enclosing) errors) :
    TellsOf m settings before id errors
  /-- An element that does not resolve has one error, whatever rules it breaks. -/
  | unresolved {cause : ModelError} {error : Diagnostic} (hresolves : ¬ m.Resolves id)
    (hcause : bindingOf m id = .error cause)
    (herror : (RoundFailure.failed id settings.markerName cause).diagnostics m = [error])
    (hblames : error.Blames "E4101" (.element id)) :
    TellsOf m settings before id [error]

/-- What a round tells of an attempt to put out a companion. -/
inductive TellsOfCompanion (m : Model) (companion : Companion) :
    Except (Stage × EmissionFault) Unit → List Diagnostic → Prop
  /-- Nothing is told of a success. -/
  | done : TellsOfCompanion m companion (.ok ()) []
  /-- Whatever the stage is, a failure is one error. -/
  | failed {stage : Stage} {fault : EmissionFault} {error : Diagnostic}
    (herror : (RoundFailure.emission companion.target companion.origin fault).diagnostics m =
      [error])
    (hblames : error.Blames "E4201" (.declaration companion.origin)) :
    TellsOfCompanion m companion (.error (stage, fault)) [error]

/-- A story of elements and attempts, which has a part for each element and one for each
companion. -/
structure Narrates (m : Model) (settings : Settings) (elements : List ElementId)
    (companions : List Companion) (results : List (Except (Stage × EmissionFault) Unit))
    (ofElements ofCompanions : List (List Diagnostic)) : Prop where
  /-- Every element has its part. -/
  length : ofElements.length = elements.length
  /-- The part of an element is told in view of the elements before it. -/
  element : ∀ (i : ℕ) id told, elements[i]? = some id → ofElements[i]? = some told →
    TellsOf m settings (elements.take i) id told
  /-- Every companion is attempted once. -/
  attempts : results.length = companions.length
  /-- The part of a companion is told in view of what became of it. -/
  companion : List.Forall₂ (fun entry told => TellsOfCompanion m entry.1 entry.2 told)
    (companions.zip results) ofCompanions

/-! ### What is told -/

variable {m : Model} {settings : Settings} {strict : Prop}

/-- What a round tells of an element is what should be told of it, in view of the elements before
it. -/
lemma tellsOf_told (h : m.Linked strict) (before : List ElementId) (id : ElementId) :
    TellsOf m settings before id
      ((verdict m settings id).told m settings (targetsOf m settings before) id) := by
  cases hverdict : verdict m settings id with
  | accepted target binding =>
    have haccepts := accepted?_iff_accepts.mp (verdict_eq_accepted_iff.mp hverdict)
    have ⟨_, d, _, _, _, htarget, _⟩ := haccepts
    rw [Verdict.told, noteOn, htarget]
    split
    · next hmem => exact .further haccepts (mem_targetsOf.mp hmem)
    · next hmem =>
      exact .first haccepts (fun other hother earlier hearlier =>
        hmem (mem_targetsOf.mpr ⟨other, hother, earlier, hearlier⟩)) htarget
  | rejected violations =>
    obtain ⟨hresolves, hviolations, hne⟩ := verdict_eq_rejected_iff.mp hverdict
    obtain ⟨field, enclosing, hfield, henclosing, rfl⟩ := violations_eq_ok_iff.mp hviolations
    have hbroken : Rule.brokenBy settings field enclosing ≠ [] := fun hnil =>
      hne (List.eq_nil_of_length_eq_zero (by rw [length_violationsOf, hnil, List.length_nil]))
    exact .rejected hresolves hfield henclosing hbroken rfl
      (blames_violationsOf m settings id field enclosing)
  | failed cause =>
    have hcause := (verdict_eq_failed_iff_of_linked h).mp hverdict
    have hresolves : ¬ m.Resolves id := fun hresolves => by
      obtain ⟨binding, hbinding⟩ := resolves_iff.mp hresolves
      cases hbinding.symm.trans hcause
    exact .unresolved hresolves hcause rfl ⟨rfl, rfl, rfl⟩

/-- What is told of attempts, when the stages are left out. -/
lemma tellsOfCompanion_told (m : Model) (companion : Companion)
    (result : Except (Stage × EmissionFault) Unit) :
    TellsOfCompanion m companion result
      (toldOfEmission m (companion, result.mapError Prod.snd)) := by
  cases result with
  | ok _ => exact .done
  | error failure => exact .failed rfl ⟨rfl, rfl, rfl⟩

/-- What a round settles is told element by element and companion by companion. -/
lemma settle_narrates (h : m.Linked strict) {elements : List ElementId}
    {results : List (Except (Stage × EmissionFault) Unit)}
    (hlength : results.length = (companionsFor m settings elements).length) :
    ∃ ofElements ofCompanions,
      (settle m settings elements (results.map (Except.mapError Prod.snd))).2 =
        startNote :: (ofElements.flatten ++ ofCompanions.flatten) ∧
      Narrates m settings elements (companionsFor m settings elements) results ofElements
        ofCompanions := by
  set companions := companionsFor m settings elements
  have heach := toldEach_eq (collects_nil m settings) elements
  refine ⟨toldEach m settings {} elements, (companions.zip results).map fun entry =>
    toldOfEmission m (entry.1, entry.2.mapError Prod.snd), ?_, ?_, fun i id told hid htold => ?_,
    hlength, ?_⟩
  · rw [settle_diagnostics, List.zip_map_right, List.flatMap_map, ← List.flatMap_def]
    rfl
  · rw [heach, List.length_mapIdx]
  · rw [heach, List.getElem?_mapIdx, hid, Option.map_some, List.map_nil, List.nil_append] at htold
    obtain rfl := Option.some.inj htold
    exact tellsOf_told h (elements.take i) id
  · rw [List.forall₂_map_right_iff, List.forall₂_same]
    exact fun entry _ => tellsOfCompanion_told m entry.1 entry.2

/-- Whatever makes the texts of the companions and whatever effects the sink has, a round over a
finished model tells that it starts, then what `TellsOf` says of each element in turn, then what
`TellsOfCompanion` says of the attempt to put out each companion, and nothing else.  The companions
come in the order in which their targets were first accepted. -/
theorem run_narrates {M : Type → Type} [Monad M] [LawfulMonad M] {unit : Type} (calls : List Call)
    {m : Model} (hfinish : (afterCalls calls).finish = .ok m) (settings : Settings)
    (generate : Generator) (sink : Sink M unit) (elements : List ElementId) :
    (companionsFor m settings elements).map Companion.origin =
        (targetsOf m settings elements).eraseDups ∧
      Coupled (fun outcome results => ∃ ofElements ofCompanions,
          outcome.2 = startNote :: (ofElements.flatten ++ ofCompanions.flatten) ∧
          Narrates m settings elements (companionsFor m settings elements) results ofElements
            ofCompanions)
        (run m settings generate sink elements)
        ((companionsFor m settings elements).mapM fun companion =>
          (attempt generate sink companion).run) := by
  have hcoherent := (afterCalls_coherent calls).1.finish hfinish
  refine ⟨(takeElements_collects m settings elements).origins, ?_⟩
  have hemissions : emissions generate sink (companionsFor m settings elements) =
      List.map (Except.mapError Prod.snd) <$>
        (companionsFor m settings elements).mapM fun companion =>
          (attempt generate sink companion).run := by
    rw [← mapM_map_eq]
    exact congrArg (List.mapM · _) (funext (emit_eq_attempt generate sink))
  rw [run_eq, hemissions, Functor.map_map]
  exact (yields_mapM_length _ _).coupled_map fun results hresults =>
    settle_narrates hcoherent.toLinked hresults

/-- A class with two fields that break no rule, one that breaks a rule, and one without a type that
could be named, which breaks a rule as well. -/
def memoCalls : List Call :=
  let memo : DeclId := ⟨11⟩
  let string : TypeId := ⟨1⟩
  let pages : TypeId := ⟨12⟩
  [.declare { name := "app.Memo" },
    .addField ⟨"title", string, memo, {}, []⟩,
    .addField ⟨"text", string, memo, {}, []⟩,
    .addField ⟨"author", string, memo, { isPrivate := true }, []⟩,
    .array ⟨99⟩,
    .addField ⟨"pages", pages, memo, { isStatic := true }, []⟩]

/-- The elements of the memo, and one that is not there. -/
def memoElements : List ElementId :=
  [⟨0⟩, ⟨2⟩, ⟨1⟩, ⟨3⟩, ⟨7⟩]

/-- A generator without texts. -/
def textless : Generator := fun companion =>
  .error (.noFields companion.className)

/-- The codes of what is told of the memo and its elements, and what the errors are about. -/
def memoTold : List (Option String × Option Anchor) := [
  (none, none),
  (none, none), (none, none),
  (some "E4001", some (.element ⟨2⟩)),
  (none, none),
  (some "E4101", some (.element ⟨3⟩)),
  (some "E4101", some (.element ⟨7⟩)),
  (some "E4201", some (.declaration ⟨11⟩))]

/-- The round over `memoElements`, whose companion has no text, tells of four errors. -/
theorem memo_narrates : ∃ m, (afterCalls memoCalls).finish = .ok m ∧
    let outcome := ((run m {} textless UnitStore.sink memoElements).run {}).1
    let results := (((companionsFor m {} memoElements).mapM fun companion =>
      (attempt textless UnitStore.sink companion).run).run {}).1
    (outcome.2.map fun told => (told.code, told.anchor)) = memoTold ∧
    ∃ ofElements ofCompanions,
      outcome.2 = startNote :: (ofElements.flatten ++ ofCompanions.flatten) ∧
      Narrates m {} memoElements (companionsFor m {} memoElements) results ofElements
        ofCompanions := by
  obtain ⟨m, hfinish, htold⟩ : ∃ m, (afterCalls memoCalls).finish = .ok m ∧
      (((run m {} textless UnitStore.sink memoElements).run {}).1.2.map fun told =>
        (told.code, told.anchor)) = memoTold :=
    exists_ok_of_toOption_map (by decide +kernel)
  obtain ⟨-, hcoupled⟩ := run_narrates memoCalls hfinish {} textless UnitStore.sink memoElements
  exact ⟨m, hfinish, htold, (hcoupled.run {}).1⟩

end ParcelCompanion.Round
