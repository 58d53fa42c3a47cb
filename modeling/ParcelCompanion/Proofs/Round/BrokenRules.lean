import ParcelCompanion.Proofs.Round.Acceptance

/-!
# Which rules an element breaks

The checks of an element find violations, each with a wording of its own.  Here the rules are told
apart from their wording: `Rule.Broken` says when a rule is broken, and every violation becomes an
error with the code of its rule about what the rule is about.
-/

namespace ParcelCompanion

/-- A diagnostic is an error with the given code about the given thing. -/
structure Diagnostic.Blames (diagnostic : Diagnostic) (code : String) (anchor : Anchor) :
    Prop where
  severity : diagnostic.severity = .error
  code : diagnostic.code = some code
  anchor : diagnostic.anchor = some anchor

/-- A rule for annotated fields. -/
inductive Rule where
  /-- The field is neither private nor static. -/
  | openField
  /-- The field is in a class. -/
  | inClass
  /-- The declaration of the field is not private. -/
  | openDeclaration
  /-- The declaration of the field is in no reserved namespace. -/
  | freeNamespace
  deriving DecidableEq, Repr

namespace Rule

/-- The rules, in the order in which they are checked. -/
def all : List Rule := [.openField, .inClass, .openDeclaration, .freeNamespace]

/-- The code of errors against a rule. -/
def code : Rule → String
  | .openField => "E4001"
  | .inClass => "E4002"
  | .openDeclaration => "E4003"
  | .freeNamespace => "E4004"

/-- What errors against a rule are about: the element itself or what encloses it. -/
def anchor (element : ElementId) (enclosing : DeclId) : Rule → Anchor
  | .openField | .freeNamespace => .element element
  | .inClass | .openDeclaration => .declaration enclosing

/-- A field of a declaration breaks a rule. -/
def Broken (settings : Settings) (field : Field) (enclosing : Declaration) : Rule → Prop
  | .openField => field.modifiers.isPrivate = true ∨ field.modifiers.isStatic = true
  | .inClass => enclosing.kind ≠ .classType
  | .openDeclaration => enclosing.modifiers.isPrivate = true
  | .freeNamespace => ∃ entry ∈ settings.reserved, entry.start.toList <+: enclosing.name.toList

instance (settings : Settings) (field : Field) (enclosing : Declaration) :
    DecidablePred (Broken settings field enclosing)
  | .openField => inferInstanceAs (Decidable (_ ∨ _))
  | .inClass => inferInstanceAs (Decidable (_ ≠ _))
  | .openDeclaration => inferInstanceAs (Decidable (_ = _))
  | .freeNamespace => inferInstanceAs (Decidable (∃ entry ∈ settings.reserved, _))

/-- The rules that a field of a declaration breaks, in order. -/
def brokenBy (settings : Settings) (field : Field) (enclosing : Declaration) : List Rule :=
  all.filter (Broken settings field enclosing)

end Rule

namespace Model

variable {m : Model} {settings : Settings} {id : ElementId} {field : Field}
  {enclosing : Declaration}

/-- The rules that an element breaks, in order, when it and what encloses it are there. -/
def brokenRules (m : Model) (settings : Settings) (id : ElementId) : List Rule :=
  match m.elements[id.index]? with
  | none => []
  | some field =>
    match m.declaration? field.enclosing with
    | none => []
    | some enclosing => Rule.brokenBy settings field enclosing

lemma brokenRules_eq (hfield : m.elements[id.index]? = some field)
    (henclosing : m.declaration? field.enclosing = some enclosing) :
    m.brokenRules settings id = Rule.brokenBy settings field enclosing := by
  rw [brokenRules, hfield]
  dsimp only
  rw [henclosing]

/-- One check reports its rule, and only when it is broken. -/
lemma blames_check (m : Model) (settings : Settings) (id : ElementId) (field : Field)
    (enclosing : Declaration) {rule : Rule} {found : List Violation}
    (hkept : ¬ rule.Broken settings field enclosing → found = [])
    (hbroken : rule.Broken settings field enclosing → ∃ violation, found = [violation] ∧
      (violation.diagnostic m).Blames rule.code (rule.anchor id field.enclosing)) :
    List.Forall₂ (fun rule error =>
        Diagnostic.Blames error rule.code (rule.anchor id field.enclosing))
      ([rule].filter (Rule.Broken settings field enclosing))
      (found.map (Violation.diagnostic m)) := by
  by_cases h : rule.Broken settings field enclosing
  · obtain ⟨violation, rfl, hblames⟩ := hbroken h
    rw [List.filter_singleton, decide_eq_true h]
    exact .cons hblames .nil
  · rw [hkept h, List.filter_singleton, decide_eq_false h]
    exact .nil

/-- Every broken rule is reported by one error, with its code and about what it is about, and the
errors come in the order of the rules. -/
lemma blames_violationsOf (m : Model) (settings : Settings) (id : ElementId) (field : Field)
    (enclosing : Declaration) :
    List.Forall₂ (fun rule error =>
        Diagnostic.Blames error rule.code (rule.anchor id field.enclosing))
      (Rule.brokenBy settings field enclosing)
      ((violationsOf settings id field enclosing).map (Violation.diagnostic m)) := by
  have hbroken : Rule.brokenBy settings field enclosing =
      [Rule.openField].filter (Rule.Broken settings field enclosing) ++
      [Rule.inClass].filter (Rule.Broken settings field enclosing) ++
      [Rule.openDeclaration].filter (Rule.Broken settings field enclosing) ++
      [Rule.freeNamespace].filter (Rule.Broken settings field enclosing) := by
    simp only [← List.filter_append]
    rfl
  rw [hbroken, violationsOf, List.map_append, List.map_append, List.map_append]
  refine List.rel_append (List.rel_append (List.rel_append ?_ ?_) ?_) ?_
  · refine blames_check m settings id field enclosing (fun h => ?_) fun h => ?_
    · simpa [Rule.Broken] using h
    · exact ⟨_, if_pos (by simpa [Rule.Broken] using h), rfl, rfl, rfl⟩
  · refine blames_check m settings id field enclosing (fun h => ?_) fun h => ?_
    · simpa [Rule.Broken] using h
    · exact ⟨_, if_pos (by simpa [Rule.Broken] using h), rfl, rfl, rfl⟩
  · refine blames_check m settings id field enclosing (fun h => ?_) fun h => ?_
    · simpa [Rule.Broken] using h
    · exact ⟨_, if_pos h, rfl, rfl, rfl⟩
  · have hreserved : settings.reservedFor? enclosing.name = none ↔
        ¬ Rule.Broken settings field enclosing .freeNamespace := by
      simp [reservedFor?_eq_none_iff, Rule.Broken]
    refine blames_check m settings id field enclosing (fun h => ?_) fun h => ?_
    · rw [hreserved.mpr h]
    · obtain ⟨entry, hentry⟩ := Option.ne_none_iff_exists'.mp (mt hreserved.mp (not_not_intro h))
      rw [hentry]
      exact ⟨_, rfl, rfl, rfl, rfl⟩

/-- As many violations are found as rules are broken. -/
lemma length_violationsOf (settings : Settings) (id : ElementId) (field : Field)
    (enclosing : Declaration) :
    (violationsOf settings id field enclosing).length =
      (Rule.brokenBy settings field enclosing).length := by
  have h := (blames_violationsOf {} settings id field enclosing).length_eq
  rw [List.length_map] at h
  exact h.symm

end Model

end ParcelCompanion
