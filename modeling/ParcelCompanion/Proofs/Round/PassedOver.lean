import ParcelCompanion.Document.Build
import ParcelCompanion.Output.Memory
import ParcelCompanion.Proofs.Round.Elements
import ParcelCompanion.Proofs.Round.Run

/-!
# Elements that leave no trace

A round passes over the elements that it rejects and those that the model cannot answer for.  Apart
from what is told of these elements, and from their number, such a round does what it does without
them.  Two rounds of which one leaves out some of these elements are followed in parallel: by each
element that both take they have the same targets and the same counts.
-/

namespace ParcelCompanion.Round

open Model

variable {m : Model} {settings : Settings} {targets : Targets} {id : ElementId}
  {p q : Progress}

/-! ### Passing over an element -/

/-- A round passes over an element that it rejects or that the model cannot answer for. -/
def PassesOver (m : Model) (settings : Settings) (targets : Targets) (id : ElementId) : Prop :=
  (∃ violations, judge m settings targets id = .ok (.rejected violations)) ∨
    ∃ cause, judge m settings targets id = .error cause

/-- Whether a round passes over an element does not depend on the targets. -/
lemma passesOver_iff : PassesOver m settings targets id ↔ m.accepted? settings id = none := by
  constructor
  · intro h
    by_contra hsome
    obtain ⟨entry, haccepted⟩ := Option.ne_none_iff_exists'.mp hsome
    obtain ⟨binding, isNew, companion, targets', hjudge⟩ :
        ∃ binding isNew companion targets',
          judge m settings targets id = .ok (.accepted binding isNew companion targets') :=
      judge_accepts_iff.mpr ⟨entry.1, entry.2, haccepted⟩
    rcases h with ⟨violations, hother⟩ | ⟨cause, hother⟩ <;>
      exact nomatch hjudge.symm.trans hother
  · intro h
    exact (judge_of_not_accepted h targets).symm

/-- An element that is passed over leaves the targets as they are. -/
lemma PassesOver.targetsAfter_eq (h : PassesOver m settings targets id) :
    targetsAfter m settings targets id = targets := by
  unfold targetsAfter takeElement
  rcases h with ⟨violations, hjudge⟩ | ⟨cause, hjudge⟩ <;> rw [hjudge] <;> rfl

/-! ### Two rounds in parallel -/

/-- Two reports count the same, apart from elements that were passed over. -/
structure AgreesWith (report other : Report) : Prop where
  accepted : report.accepted = other.accepted
  companions : report.companions = other.companions
  emitted : report.emitted = other.emitted
  emissionFailures : report.emissionFailures = other.emissionFailures

/-- Two rounds under way have the same targets, and their reports count the same. -/
structure Parallel (p q : Progress) : Prop where
  targets : p.targets = q.targets
  report : AgreesWith p.report q.report

lemma AgreesWith.refl (report : Report) : AgreesWith report report :=
  ⟨rfl, rfl, rfl, rfl⟩

lemma AgreesWith.countEmissions {report other : Report} (h : AgreesWith report other)
    (results : List (Except EmissionFault Unit)) :
    AgreesWith (countEmissions report results) (countEmissions other results) :=
  ⟨h.accepted, h.companions, congrArg (· + _) h.emitted, congrArg (· + _) h.emissionFailures⟩

lemma AgreesWith.countElement {report other : Report} (h : AgreesWith report other)
    (outcome : Except ModelError Outcome) :
    AgreesWith (countElement report outcome) (countElement other outcome) := by
  obtain ⟨haccepted, hcompanions, hemitted, hfailures⟩ := h
  rcases outcome with cause | ⟨field, isNew, companion, targets⟩ | violations
  · exact ⟨haccepted, hcompanions, hemitted, hfailures⟩
  · exact ⟨congrArg (· + 1) haccepted, hcompanions, hemitted, hfailures⟩
  · exact ⟨haccepted, hcompanions, hemitted, hfailures⟩

/-- Rounds with the same targets and counts have the same targets and counts again when both take
the same element. -/
lemma Parallel.takeBoth (h : Parallel p q) (id : ElementId) :
    Parallel (takeElement m settings p id) (takeElement m settings q id) := by
  refine ⟨?_, ?_⟩
  · rw [takeElement_targets, takeElement_targets, h.targets]
  · rw [takeElement_report, takeElement_report, h.targets]
    exact h.report.countElement _

/-- Rounds with the same targets and counts keep them when one of them takes an element that it
passes over and the other leaves this element out. -/
lemma Parallel.passOver (h : Parallel p q) (hpassed : PassesOver m settings p.targets id) :
    Parallel (takeElement m settings p id) q := by
  refine ⟨?_, ?_⟩
  · rw [takeElement_targets, hpassed.targetsAfter_eq, h.targets]
  · rw [takeElement_report]
    obtain ⟨haccepted, hcompanions, hemitted, hfailures⟩ := h.report
    rcases hpassed with ⟨violations, hjudge⟩ | ⟨cause, hjudge⟩ <;> rw [hjudge] <;>
      exact ⟨haccepted, hcompanions, hemitted, hfailures⟩

/-! ### Leaving out elements -/

/-- The members of a list that are marked to stay. -/
def staying {α : Type} (entries : List (α × Bool)) : List α :=
  (entries.filter Prod.snd).map Prod.fst

@[simp] lemma staying_cons {α : Type} (a : α) (stays : Bool) (entries : List (α × Bool)) :
    staying ((a, stays) :: entries) = if stays then a :: staying entries else staying entries := by
  cases stays <;> rfl

/-- Elements that a round may leave out: it would pass over those that are not marked to stay. -/
def MayLeaveOut (m : Model) (settings : Settings) (elements : List (ElementId × Bool)) : Prop :=
  ∀ entry ∈ elements, entry.2 = false → ∃ targets, PassesOver m settings targets entry.1

lemma MayLeaveOut.passesOver {elements : List (ElementId × Bool)}
    (h : MayLeaveOut m settings ((id, false) :: elements)) (targets : Targets) :
    PassesOver m settings targets id := by
  obtain ⟨_, hpassed⟩ := h _ List.mem_cons_self rfl
  exact passesOver_iff.mpr (passesOver_iff.mp hpassed)

lemma MayLeaveOut.tail {entry : ElementId × Bool} {elements : List (ElementId × Bool)}
    (h : MayLeaveOut m settings (entry :: elements)) : MayLeaveOut m settings elements :=
  fun other hother => h other (List.mem_cons_of_mem _ hother)

/-- The rounds stay parallel, whatever is left out. -/
lemma Parallel.foldl_takeElement (h : Parallel p q) {elements : List (ElementId × Bool)}
    (hout : MayLeaveOut m settings elements) :
    Parallel ((elements.map Prod.fst).foldl (takeElement m settings) p)
      ((staying elements).foldl (takeElement m settings) q) := by
  -- an element that stays is taken by both rounds, and any other by the first round alone
  induction elements generalizing p q with
  | nil => exact h
  | cons entry elements ih =>
    obtain ⟨id, stays⟩ := entry
    cases stays with
    | true => exact ih (h.takeBoth id) hout.tail
    | false => exact ih (h.passOver (hout.passesOver p.targets)) hout.tail

/-- What is told of the elements that stay is what was told of them before. -/
lemma toldEach_staying {elements : List (ElementId × Bool)}
    (hout : MayLeaveOut m settings elements) (targets : Targets) :
    toldEach m settings targets (staying elements) =
      staying ((toldEach m settings targets (elements.map Prod.fst)).zip
        (elements.map Prod.snd)) := by
  induction elements generalizing targets with
  | nil => rfl
  | cons entry elements ih =>
    obtain ⟨id, stays⟩ := entry
    cases stays with
    | true =>
      simp only [staying_cons, List.map_cons, toldEach, List.zip_cons_cons, if_true]
      rw [ih hout.tail]
    | false =>
      simp only [staying_cons, List.map_cons, toldEach, List.zip_cons_cons, Bool.false_eq_true,
        if_false]
      -- the next element finds the targets as if this one had not been there
      rw [(hout.passesOver targets).targetsAfter_eq, ih hout.tail]

lemma parallel_takeElements {elements : List (ElementId × Bool)}
    (hout : MayLeaveOut m settings elements) :
    Parallel (takeElements m settings (elements.map Prod.fst))
      (takeElements m settings (staying elements)) := by
  have hstart : Parallel (({} : Progress).tell [startNote]) (({} : Progress).tell [startNote]) :=
    ⟨rfl, .refl _⟩
  obtain ⟨htargets, hreport⟩ := hstart.foldl_takeElement hout
  refine ⟨htargets, hreport.accepted, ?_, hreport.emitted, hreport.emissionFailures⟩
  exact congrArg (fun targets => targets.companions.size) htargets

/-! ### The whole round -/

/-- A round does the same when only the elements that are marked to stay are taken. -/
structure Undisturbed {M : Type → Type} [Monad M] {unit : Type} (m : Model) (settings : Settings)
    (generate : Generator) (sink : Sink M unit) (elements : List (ElementId × Bool)) : Prop where
  /-- With all elements, the companions are put out one after the other. -/
  whole : run m settings generate sink (elements.map Prod.fst) =
    settle m settings (elements.map Prod.fst) <$>
      (companionsFor m settings (elements.map Prod.fst)).mapM (emit generate sink)
  /-- With those that stay, the same companions are put out.  So the sink receives the same calls,
  answers them in the same way, and is left in the same state. -/
  part : run m settings generate sink (staying elements) =
    settle m settings (staying elements) <$>
      (companionsFor m settings (elements.map Prod.fst)).mapM (emit generate sink)
  /-- Whatever becomes of the companions, the same is counted. -/
  counts : ∀ results, AgreesWith (settle m settings (elements.map Prod.fst) results).1
    (settle m settings (staying elements) results).1
  /-- The same is told of each element that stays. -/
  told : toldEach m settings {} (staying elements) =
    staying ((toldEach m settings {} (elements.map Prod.fst)).zip (elements.map Prod.snd))
  /-- Whatever becomes of the companions, the same is told of them, behind what is told of the
  elements. -/
  diagnostics : ∀ results,
    let tail := ((companionsFor m settings (elements.map Prod.fst)).zip results).flatMap
      (toldOfEmission m)
    (settle m settings (elements.map Prod.fst) results).2 =
        startNote :: ((toldEach m settings {} (elements.map Prod.fst)).flatten ++ tail) ∧
      (settle m settings (staying elements) results).2 =
        startNote :: ((toldEach m settings {} (staying elements)).flatten ++ tail)

/-- A round is not disturbed by elements that it rejects or that the model cannot answer for.
Whatever makes the texts of the companions and whatever effects the sink has, the round does the
same when any of these elements are left out. -/
theorem undisturbed_of_mayLeaveOut {M : Type → Type} [Monad M] [LawfulMonad M] {unit : Type}
    (m : Model) (settings : Settings) (generate : Generator) (sink : Sink M unit)
    {elements : List (ElementId × Bool)} (hout : MayLeaveOut m settings elements) :
    Undisturbed m settings generate sink elements := by
  have hparallel := parallel_takeElements hout
  have hcompanions : companionsFor m settings (staying elements) =
      companionsFor m settings (elements.map Prod.fst) :=
    congrArg (fun targets => targets.companions.toList) hparallel.targets.symm
  refine ⟨run_eq .., ?_, fun results => ?_, toldEach_staying hout {}, fun results =>
    ⟨settle_diagnostics .., ?_⟩⟩
  · rw [run_eq, hcompanions]
    rfl
  · rw [settle, settle, recordEmissions_report, recordEmissions_report, hcompanions]
    exact hparallel.report.countEmissions _
  · rw [settle_diagnostics, hcompanions]

/-- A class with nothing but a private field, and a class with a field of either kind. -/
def accounts : Document where
  declarations := [
    { name := "app.Secret"
      fields := [{ name := "code", type := "int", modifiers := [.privateAccess] }] },
    { name := "app.Account"
      fields := [
        { name := "owner", type := "String" },
        { name := "count", type := "int", modifiers := [.static] }] }]

/-- The elements of the classes and one that is not there.  Only the field that breaks no rule is
marked to stay. -/
def accountElements : List (ElementId × Bool) :=
  [(⟨0⟩, false), (⟨99⟩, false), (⟨1⟩, true), (⟨2⟩, false)]

/-- A round over `accountElements` makes one companion, and it is not disturbed by those that may be
left out. -/
theorem accounts_undisturbed : ∃ m, accounts.build = .ok m ∧
    (companionsFor m {} (accountElements.map Prod.fst)).map Companion.fullName =
      ["app.Account$$ParcelDelegate"] ∧
    MayLeaveOut m {} accountElements ∧
    Undisturbed m {} Companion.source UnitStore.sink accountElements := by
  obtain ⟨m, hbuild, hchecked⟩ : ∃ m, accounts.build = .ok m ∧
      ((companionsFor m {} (accountElements.map Prod.fst)).map Companion.fullName,
        accountElements.all fun entry => entry.2 || (m.accepted? {} entry.1).isNone) =
      (["app.Account$$ParcelDelegate"], true) :=
    exists_ok_of_toOption_map (by decide +kernel)
  obtain ⟨hnames, hpassed⟩ := Prod.mk.inj hchecked
  have hout : MayLeaveOut m {} accountElements := fun entry hentry hstays =>
    ⟨{}, passesOver_iff.mpr (by simpa [hstays] using List.all_eq_true.mp hpassed entry hentry)⟩
  exact ⟨m, hbuild, hnames, hout, undisturbed_of_mayLeaveOut m {} _ _ hout⟩

end ParcelCompanion.Round
