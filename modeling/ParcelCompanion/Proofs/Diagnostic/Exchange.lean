import ParcelCompanion.Diagnostic.Json
import ParcelCompanion.Proofs.Json.Record

/-!
# Diagnostics survive their JSON form

A diagnostic begins with a severity and a message and is built by steps.  A code or an anchor replaces
the one before it, while the remarks add up, one for each anchor, note and help.  So what is known of
a diagnostic is told by its steps: the last code, the last anchor, and all remarks in order.

The text of a diagnostic is read back as exactly that, and whatever is exchanged is read back as it
was written.  The number of an anchor must be one of 32 bits, as all numbers of a model are.
-/

namespace ParcelCompanion

open Json (Value)

/-! ### Steps -/

namespace Diagnostic

/-- A step of building a diagnostic. -/
inductive Step where
  | code (text : String)
  | anchor (item : Anchor) (label : String)
  | note (text : String)
  | help (text : String)
  deriving DecidableEq, Repr

namespace Step

/-- What a step makes of a diagnostic. -/
def apply (diagnostic : Diagnostic) : Step → Diagnostic
  | .code text => diagnostic.withCode text
  | .anchor item label => diagnostic.withAnchor item label
  | .note text => diagnostic.withNote text
  | .help text => diagnostic.withHelp text

/-- The code that a step sets. -/
def code? : Step → Option String
  | .code text => some text
  | _ => none

/-- The anchor that a step sets. -/
def anchor? : Step → Option Anchor
  | .anchor item _ => some item
  | _ => none

/-- The remark that a step adds. -/
def remark? : Step → Option String
  | .code _ => none
  | .anchor _ label => some ("in `" ++ label ++ "`")
  | .note text => some text
  | .help text => some ("help: " ++ text)

end Step

/-- The diagnostic that steps make of a severity and a message. -/
def build (severity : Severity) (message : String) (steps : List Step) : Diagnostic :=
  steps.foldl Step.apply { severity, message }

lemma build_concat (severity : Severity) (message : String) (steps : List Step) (step : Step) :
    build severity message (steps ++ [step]) = step.apply (build severity message steps) :=
  List.foldl_concat ..

/-- What a list of steps sets last is what the step behind it sets, or else what the list sets. -/
lemma getLast?_filterMap_concat {α : Type} (f : Step → Option α) (steps : List Step) (step : Step) :
    ((steps ++ [step]).filterMap f).getLast? = (f step).or (steps.filterMap f).getLast? := by
  rw [List.filterMap_append]
  cases hf : f step with
  | none => rw [List.filterMap_cons_none hf, List.filterMap_nil, List.append_nil, Option.none_or]
  | some x => rw [List.filterMap_cons_some hf, List.filterMap_nil, List.getLast?_concat, Option.some_or]

/-- What is known of a diagnostic is told by its steps. -/
lemma build_eq (severity : Severity) (message : String) (steps : List Step) :
    build severity message steps = {
      severity, message
      code := (steps.filterMap Step.code?).getLast?
      anchor := (steps.filterMap Step.anchor?).getLast?
      notes := steps.filterMap Step.remark? } := by
  induction steps using List.reverseRecOn with
  | nil => rfl
  | append_singleton steps step ih =>
    rw [build_concat, ih, getLast?_filterMap_concat, getLast?_filterMap_concat,
      List.filterMap_append]
    cases step with
    | code text => exact congrArg (Diagnostic.mk _ _ _ _) (List.append_nil _).symm
    | anchor item label => rfl
    | note text => rfl
    | help text => rfl

end Diagnostic

/-! ### Anchors -/

namespace Anchor

variable {anchor : Anchor}

/-- The number of an anchor is one of 32 bits. -/
def IsWord (anchor : Anchor) : Prop :=
  anchor.number < UInt32.size

instance (anchor : Anchor) : Decidable anchor.IsWord :=
  inferInstanceAs (Decidable (_ < _))

lemma ofKind?_kind (anchor : Anchor) : ofKind? anchor.kind anchor.number = some anchor := by
  cases anchor <;> rfl

lemma ofJson?_toJson (h : anchor.IsWord) : ofJson? anchor.toJson = some anchor := by
  have hrecord : Record.ofJson? recordFields anchor.toJson = some ⟨false, _⟩ :=
    Record.ofJson?_ofMembers (show Record.NameFields recordFields ["kind", "id"] by decide)
  have hkind : word? (.ofText anchor.kind) = some anchor.kind := rfl
  have hnumber : (Value.ofNat anchor.number).word? = some anchor.number := Value.word?_ofNat h
  simp [ofJson?, hrecord, hkind, hnumber, Record.required, Record.given?, List.lookup_cons,
    ofKind?_kind]

lemma isProper_toJson (anchor : Anchor) : anchor.toJson.IsProper := by
  refine Value.isProper_ofMembers ?_
  simp only [List.forall_mem_cons, List.not_mem_nil, false_implies, implies_true, and_true]
  exact ⟨Value.isProper_ofText _, Value.isProper_ofNat _⟩

end Anchor

/-! ### Records -/

namespace DiagnosticRecord

variable {record : DiagnosticRecord}

/-- A diagnostic is what its JSON form is read as. -/
lemma ofJson?_toJson (h : ∀ anchor ∈ record.anchor, anchor.IsWord) :
    ofJson? record.toJson = some record := by
  have hrecord : Record.ofJson? recordFields record.toJson = some ⟨false, _⟩ :=
    Record.ofJson?_ofMembers (show Record.NameFields recordFields
      ["code", "severity", "message", "anchor", "notes"] by decide)
  have hcode : Value.nullable? Value.text? (.ofOption (record.code.map .ofText)) =
      some record.code :=
    Value.nullable?_ofOption fun code _ => ⟨nofun, Value.text?_ofText code⟩
  have hanchor : Value.nullable? Anchor.ofJson? (.ofOption (record.anchor.map Anchor.toJson)) =
      some record.anchor :=
    Value.nullable?_ofOption fun anchor hanchor => ⟨nofun, Anchor.ofJson?_toJson (h anchor hanchor)⟩
  simp [ofJson?, hrecord, hcode, hanchor, Record.required, Record.optional, Record.given?,
    List.lookup_cons]

lemma isProper_toJson (record : DiagnosticRecord) : record.toJson.IsProper := by
  refine Value.isProper_ofMembers ?_
  simp only [List.forall_mem_cons, List.not_mem_nil, false_implies, implies_true, and_true]
  exact ⟨Value.isProper_ofOption_map Value.isProper_ofText _, Value.isProper_ofText _,
    Value.isProper_ofText _, Value.isProper_ofOption_map Anchor.isProper_toJson _,
    Value.isProper_ofTexts _⟩

/-- A diagnostic is read back from one line and from several. -/
lemma parse_text (h : ∀ anchor ∈ record.anchor, anchor.IsWord) :
    parse record.compact = some record ∧ parse record.toJson.pretty = some record := by
  obtain ⟨hcompact, hpretty⟩ := record.isProper_toJson.parse_eq
  refine ⟨?_, ?_⟩
  · rw [parse, compact, hcompact]
    exact ofJson?_toJson h
  · rw [parse, hpretty]
    exact ofJson?_toJson h

end DiagnosticRecord

namespace Diagnostic

end Diagnostic

end ParcelCompanion
