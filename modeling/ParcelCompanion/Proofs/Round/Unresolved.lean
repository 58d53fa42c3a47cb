import ParcelCompanion.Output.Memory
import ParcelCompanion.Proofs.Document.Build
import ParcelCompanion.Proofs.Effect
import ParcelCompanion.Proofs.Round.Telling

/-!
# Elements that do not resolve

The model of a document has an answer to every question that a round asks about one of its elements:
the type of the element is there, so is what it counts as, types that are there have names, and so
has what encloses the element.  So a round over such a model fails for the elements that are not
there, and for no others.
-/

namespace ParcelCompanion

/-! ### Questions about elements -/

namespace Model

variable {strict : Prop} {m : Model} {root : Declaration} {element : ElementId} {field : Field}

/-- The bound of a type parameter is there, be it its first bound or the root class. -/
lemma Coherent.exists_isUpperBound (h : m.Coherent strict)
    (hroot : m.declaration? object = some root) {id : TypeId} {owner : DeclId} {index : ℕ}
    (hid : m.type? id = some (.parameter owner index)) :
    ∃ bound, m.IsUpperBound owner index bound ∧ m.Usable strict bound := by
  obtain ⟨parameter, hparameter⟩ := h.typeParameter_of_parameter hid
  obtain ⟨d, hd, hindex⟩ := typeParameter_eq_ok_iff.mp hparameter
  cases hbounds : parameter.bounds with
  | nil =>
    exact ⟨root.selfType, ⟨d, parameter, hd, hindex, Or.inr ⟨hbounds, root, hroot, rfl⟩⟩,
      h.usable_selfType hroot⟩
  | cons first rest =>
    have hfirst : parameter.bounds.head? = some first := by rw [hbounds, List.head?_cons]
    have hmem : first ∈ d.references := Declaration.mem_references.mpr
      (Or.inr (Or.inr (Or.inr ⟨parameter, List.mem_of_getElem? hindex,
        List.mem_of_head? hfirst⟩)))
    exact ⟨first, ⟨d, parameter, hd, hindex, Or.inl hfirst⟩, h.references owner d hd first hmem⟩

/-- What a type counts as is there. -/
lemma Coherent.exists_countsAs (h : m.Coherent strict)
    (hroot : m.declaration? object = some root) {id : TypeId} (hid : m.Usable strict id) :
    ∃ bound, m.CountsAs id bound ∧ m.Usable strict bound := by
  have ⟨term, hterm, _⟩ := hid
  cases term with
  | parameter owner index =>
    obtain ⟨bound, hbound, husable⟩ := h.exists_isUpperBound hroot hterm
    exact ⟨bound, .parameter hterm hbound, husable⟩
  | _ => exact ⟨id, .other hterm nofun, hid⟩

/-- Every element of a strictly coherent model with a root class resolves. -/
lemma Coherent.resolves (h : m.Coherent True) (hroot : m.declaration? object = some root)
    (hfield : m.elements[element.index]? = some field) : m.Resolves element := by
  obtain ⟨htype, -⟩ := h.fields field (Array.mem_of_getElem? hfield)
  obtain ⟨bound, hbound, term, hterm, -⟩ := h.exists_countsAs hroot htype
  obtain ⟨name, hname, -⟩ := h.exists_canonicalName h.grounded hterm
  exact ⟨field, bound, name, hfield, hbound, hname⟩

/-- The elements with a property are there. -/
lemma index_lt_of_mem_elementsWhere {property : Field → Bool}
    (h : element ∈ m.elementsWhere property) : element.index < m.elements.size := by
  have helements : m.elementsWhere property =
      (m.elements.toList.zipIdx.filter fun x => property x.1).map fun x => ⟨x.2⟩ :=
    filterMap_ite_eq (fun x : Field × ℕ => property x.1) _ _
  rw [helements] at h
  obtain ⟨x, hx, rfl⟩ := List.mem_map.mp h
  have hfield := List.mem_zipIdx_iff_getElem?.mp (List.mem_of_mem_filter hx)
  rw [Array.getElem?_toList] at hfield
  exact (Array.getElem?_eq_some_iff.mp hfield).1

/-- A finished model has a root class. -/
lemma exists_root_of_finish {finished : Model} (h : m.finish = .ok finished) :
    ∃ root, finished.declaration? object = some root := by
  obtain ⟨d, hd, -⟩ := exists_of_finish h
  obtain ⟨root, hroot, -⟩ := (redeclares_of_finish h).toExtends.declaration? hd
  exact ⟨root, hroot⟩

end Model

/-- The model of a document is a finished one. -/
lemma Document.exists_finish_of_build {document : Document} {m : Model}
    (h : document.build = .ok m) : ∃ registered : Model, registered.finish = .ok m := by
  unfold build at h
  split at h
  · next registered _ => exact ⟨registered, h⟩
  · exact nomatch h

namespace Round

open Model

variable {m : Model} {settings : Settings} {accepted : List (DeclId × Binding)} {targets : Targets}
  {root : Declaration}

/-- Only elements that are not there fail. -/
lemma isFailed_verdict_iff (h : m.Coherent True) (hroot : m.declaration? object = some root)
    {id : ElementId} :
    (verdict m settings id).isFailed = true ↔ m.elements.size ≤ id.index := by
  by_cases hlt : id.index < m.elements.size
  · have hfield := Array.getElem?_eq_getElem hlt
    obtain ⟨binding, hbinding⟩ := resolves_iff.mp (h.resolves hroot hfield)
    have hnot : ∀ cause, verdict m settings id ≠ .failed cause := fun cause hfailed => by
      have herror := (verdict_eq_failed_iff_of_linked h.toLinked).mp hfailed
      exact nomatch hbinding.symm.trans herror
    cases hverdict : verdict m settings id with
    | failed cause => exact absurd hverdict (hnot cause)
    | accepted target binding => simp [Verdict.isFailed, hlt]
    | rejected violations => simp [Verdict.isFailed, hlt]
  · have hle := Nat.le_of_not_lt hlt
    have hmissing : bindingOf m id = .error (.unknownElement id) := by
      rw [bindingOf, element, Array.getElem?_eq_none hle]
      rfl
    rw [verdict_eq_failed_iff.mpr (Or.inl hmissing)]
    exact ⟨fun _ => hle, fun _ => rfl⟩

/-! ### Errors for elements that do not resolve -/

/-- Whether a diagnostic tells of an element that does not resolve. -/
def isUnresolved (diagnostic : Diagnostic) : Bool :=
  diagnostic.code = some "E4101"

/-- The errors for elements that do not resolve, by what they are about. -/
def unresolvedIn (diagnostics : List Diagnostic) : List (Option Anchor) :=
  (diagnostics.filter isUnresolved).map Diagnostic.anchor

lemma unresolvedIn_append (diagnostics diagnostics' : List Diagnostic) :
    unresolvedIn (diagnostics ++ diagnostics') =
      unresolvedIn diagnostics ++ unresolvedIn diagnostics' := by
  rw [unresolvedIn, List.filter_append, List.map_append]
  rfl

/-- What is told of an element that does not resolve has one error for this, which is about the
element.  What is told of any other element has none. -/
lemma unresolvedIn_told (seen : List DeclId) (id : ElementId) :
    unresolvedIn ((verdict m settings id).told m settings seen id) =
      if (verdict m settings id).isFailed then [some (.element id)] else [] := by
  cases verdict m settings id with
  | accepted target binding =>
    rw [Verdict.told, noteOn]
    cases m.declaration? target <;> split <;> rfl
  | rejected violations =>
    have hnone : ∀ told ∈ (RoundFailure.rejected id violations).diagnostics m,
        ¬ isUnresolved told = true := by
      intro told htold
      obtain ⟨violation, -, rfl⟩ := List.mem_map.mp htold
      cases violation <;> exact Bool.false_ne_true
    rw [Verdict.told, unresolvedIn, List.filter_eq_nil_iff.mpr hnone]
    rfl
  | failed cause => rfl

/-- What is told of several elements has one error for each of them that does not resolve, in
order. -/
lemma unresolvedIn_toldEach (h : Collects m settings accepted targets)
    (elements : List ElementId) :
    unresolvedIn (toldEach m settings targets elements).flatten =
      (elements.filter fun id => (verdict m settings id).isFailed).map
        fun id => some (.element id) := by
  induction elements generalizing accepted targets with
  | nil => rfl
  | cons id elements ih =>
    rw [toldEach, List.flatten_cons, unresolvedIn_append, told_eq h, unresolvedIn_told,
      ih (h.targetsAfter id), List.filter_cons]
    split <;> rfl

/-- What is told of companions that were put out or not has no errors for elements that do not
resolve. -/
lemma unresolvedIn_toldOfEmission
    (entries : List (Companion × Except EmissionFault Unit)) :
    unresolvedIn (entries.flatMap (toldOfEmission m)) = [] := by
  have hnone : ∀ told ∈ entries.flatMap (toldOfEmission m), ¬ isUnresolved told = true := by
    intro told htold
    obtain ⟨⟨companion, result⟩, -, htold⟩ := List.mem_flatMap.mp htold
    cases result with
    | ok _ => exact nomatch htold
    | error cause =>
      obtain rfl := List.mem_singleton.mp htold
      nofun
  rw [unresolvedIn, List.filter_eq_nil_iff.mpr hnone]
  rfl

/-- A settled round tells one error for each element that does not resolve, in order. -/
lemma unresolvedIn_settle (elements : List ElementId)
    (results : List (Except EmissionFault Unit)) :
    unresolvedIn (settle m settings elements results).2 =
      (elements.filter fun id => (verdict m settings id).isFailed).map
        fun id => some (.element id) := by
  have hstart : unresolvedIn [startNote] = [] := rfl
  rw [settle_diagnostics, ← List.singleton_append, unresolvedIn_append, unresolvedIn_append, hstart,
    unresolvedIn_toldEach (collects_nil m settings), unresolvedIn_toldOfEmission, List.nil_append,
    List.append_nil]

/-- Among diagnostics without an error for an element that does not resolve, none has the code of
such errors. -/
lemma code_ne_of_unresolvedIn_eq_nil {diagnostics : List Diagnostic}
    (h : unresolvedIn diagnostics = []) : ∀ told ∈ diagnostics, told.code ≠ some "E4101" := by
  intro told htold hcode
  have hnone := List.filter_eq_nil_iff.mp (List.map_eq_nil_iff.mp h) told htold
  exact hnone (decide_eq_true hcode)

/-- What a round counts as failed are the elements that fail. -/
lemma settle_failed {elements : List ElementId} {results : List (Except EmissionFault Unit)}
    (h : results.length = (companionsFor m settings elements).length) :
    (settle m settings elements results).1.failed =
      elements.countP fun id => (verdict m settings id).isFailed := by
  rw [settle_report h, takeElements_report]
  exact Nat.zero_add _

/-! ### Elements that are not there -/

/-- Whether an element is not there. -/
def isOutside (m : Model) (id : ElementId) : Bool :=
  m.elements.size ≤ id.index

/-- A round over a strictly coherent model with a root class fails for the elements that are not
there. -/
lemma yields_failed (h : m.Coherent True) (hroot : m.declaration? object = some root)
    (settings : Settings) {M : Type → Type} [Monad M] [LawfulMonad M] {unit : Type}
    (generate : Generator) (sink : Sink M unit) (elements : List ElementId) :
    Yields (fun outcome => outcome.1.failed = elements.countP (isOutside m) ∧
        unresolvedIn outcome.2 = (elements.filter (isOutside m)).map fun id => some (.element id))
      (run m settings generate sink elements) := by
  have hfailed : (fun id => (verdict m settings id).isFailed) = isOutside m := by
    funext id
    rw [Bool.eq_iff_iff, isOutside, decide_eq_true_iff]
    exact isFailed_verdict_iff h hroot
  rw [run_eq, ← hfailed]
  exact (yields_mapM_length (emit generate sink) _).map fun results hresults =>
    ⟨settle_failed hresults, unresolvedIn_settle elements results⟩

/-- Over the model of a document, whatever the targets are by then, an element fails exactly when it
is not there.  So a round counts as failed as many elements as are not there, and tells of each of
them, in order and as often as it is listed.  Over the annotated elements of the model it counts and
tells of none. -/
theorem run_fails_outside {document : Document} {m : Model} (hbuild : document.build = .ok m)
    (settings : Settings) :
    (∀ targets id, (∃ cause, judge m settings targets id = .error cause) ↔
      m.elements.size ≤ id.index) ∧
    ∀ {M : Type → Type} [Monad M] [LawfulMonad M] {unit : Type} (generate : Generator)
      (sink : Sink M unit),
      (∀ elements, Yields (fun outcome => outcome.1.failed = elements.countP (isOutside m) ∧
          unresolvedIn outcome.2 =
            (elements.filter (isOutside m)).map fun id => some (.element id))
        (run m settings generate sink elements)) ∧
      Yields (fun outcome => outcome.1.failed = 0 ∧ ∀ told ∈ outcome.2, told.code ≠ some "E4101")
        (run m settings generate sink (m.annotatedWith settings.marker)) := by
  obtain ⟨hcoherent, -⟩ := Document.build_coherent hbuild
  obtain ⟨registered, hfinish⟩ := Document.exists_finish_of_build hbuild
  obtain ⟨root, hroot⟩ := exists_root_of_finish hfinish
  refine ⟨fun targets id => ?_, fun {M} _ _ {unit} generate sink => ?_⟩
  · have hfailed : (verdict m settings id).isFailed = true ↔ m.elements.size ≤ id.index :=
      isFailed_verdict_iff hcoherent hroot
    simp only [judge_eq_error_iff, ← hfailed]
    cases verdict m settings id <;> simp [Verdict.isFailed]
  have hrun := yields_failed hcoherent hroot settings generate sink
  refine ⟨hrun, (hrun (m.annotatedWith settings.marker)).mono fun outcome houtcome => ?_⟩
  -- annotated elements are found by going through the elements of the model
  obtain ⟨hcount, hunresolved⟩ := houtcome
  have hinside : ∀ id ∈ m.annotatedWith settings.marker, ¬ isOutside m id = true := by
    intro id hid
    rw [isOutside, decide_eq_true_iff, Nat.not_le]
    exact index_lt_of_mem_elementsWhere hid
  constructor
  · rw [hcount, List.countP_eq_zero.mpr hinside]
  · rw [List.filter_eq_nil_iff.mpr hinside] at hunresolved
    exact code_ne_of_unresolvedIn_eq_nil hunresolved

/-- A class with an annotated field whose type is a type parameter with a bound that means nothing,
and with a private field. -/
def cells : Document where
  declarations := [
    { name := "app.Cell"
      parameters := [{ name := "T", bounds := ["Comparable<? super T>"] }]
      fields := [
        { name := "value", type := "T", annotations := [({} : Settings).marker] },
        { name := "next", type := "Cell<? extends T>[]", modifiers := [.privateAccess] }] }]

/-- The model of `cells` has two elements.  A round over five elements fails for the three that are
not among them, repetitions included, and the round over the annotated one does not fail. -/
theorem cells_fail_outside : ∃ m, cells.build = .ok m ∧
    m.elements.size = 2 ∧ m.annotatedWith ({} : Settings).marker = [⟨0⟩] ∧
    let round := run m {} Companion.source UnitStore.sink
    let outcome := ((round [⟨2⟩, ⟨1⟩, ⟨0⟩, ⟨7⟩, ⟨2⟩]).run {}).1
    outcome.1.failed = 3 ∧
      unresolvedIn outcome.2 =
        [some (.element ⟨2⟩), some (.element ⟨7⟩), some (.element ⟨2⟩)] ∧
      ((round [⟨0⟩]).run {}).1.1.failed = 0 := by
  obtain ⟨m, hbuild, hmodel⟩ : ∃ m, cells.build = .ok m ∧
      (m.elements.size, m.annotatedWith ({} : Settings).marker) = (2, [⟨0⟩]) :=
    exists_ok_of_toOption_map (by decide +kernel)
  obtain ⟨hsize, hannotated⟩ := Prod.mk.inj hmodel
  obtain ⟨-, hround⟩ := run_fails_outside hbuild {}
  obtain ⟨hrun, hall⟩ := hround Companion.source UnitStore.sink
  obtain ⟨hfailed, hunresolved⟩ := (hrun [⟨2⟩, ⟨1⟩, ⟨0⟩, ⟨7⟩, ⟨2⟩]).run {}
  have houtside : isOutside m = fun id => decide (2 ≤ id.index) := by
    funext id
    rw [isOutside, hsize]
  rw [houtside] at hfailed hunresolved
  rw [hannotated] at hall
  exact ⟨m, hbuild, hsize, hannotated, hfailed, hunresolved, (hall.run {}).1⟩

end Round

end ParcelCompanion
