import ParcelCompanion.Proofs.Companion.Characters
import ParcelCompanion.Proofs.Companion.Name

/-!
# The lines of a source

The source of a companion is put together from lines.  The names in it are made of identifiers, so
only the type of a field could break one of them.  When no type does, the lines of the text are the
lines that were put into it: a frame that depends on nothing but whether there is a package, and two
lines for each field.  A companion that is confined to proper characters has no such type.
-/

namespace ParcelCompanion

variable {a b text : String}

/-! ### Lines -/

/-- A text is at most one line: it has no character that ends a line. -/
def IsLine (text : String) : Prop :=
  '\n' ∉ text.toList

instance : Decidable (IsLine text) :=
  inferInstanceAs (Decidable (¬ _))

lemma isLine_append_iff : IsLine (a ++ b) ↔ IsLine a ∧ IsLine b := by
  simp only [IsLine, String.toList_append, List.mem_append, not_or]

lemma isLine_between (ha : IsLine a) (htext : IsLine text) (hb : IsLine b) :
    IsLine (a ++ text ++ b) :=
  isLine_append_iff.mpr ⟨isLine_append_iff.mpr ⟨ha, htext⟩, hb⟩

lemma IsTypeText.isLine (h : IsTypeText text) : IsLine text :=
  fun hmem => absurd (h _ hmem) (by decide +kernel)

lemma IsNameText.isLine (h : IsNameText text) : IsLine text :=
  h.isTypeText.isLine

/-- The lines of a text, each up to a line feed and the last one up to the end. -/
def linesOf (text : String) : List String :=
  (text.toList.splitOn '\n').map String.ofList

/-- Texts that are put one below the other are read back as they were if each is one line. -/
lemma splitOn_join_lines {lines : List String} (h : ∀ line ∈ lines, IsLine line) :
    (String.join (lines.map (· ++ "\n"))).toList.splitOn '\n' =
      lines.map String.toList ++ [[]] := by
  induction lines with
  | nil => rfl
  | cons line lines ih =>
    obtain ⟨hline, hlines⟩ := List.forall_mem_cons.mp h
    have htext : (String.join ((line :: lines).map (· ++ "\n"))).toList =
        line.toList ++ '\n' :: (String.join (lines.map (· ++ "\n"))).toList := by
      simp
    rw [htext, List.splitOn_append_cons_self, List.splitOn_eq_singleton hline, ih hlines]
    rfl

/-! ### Companions -/

namespace Companion

variable {companion : Companion}

/-- The names of a companion are made of the characters of names, and the types of its fields of the
characters of types. -/
structure IsConfined (companion : Companion) : Prop where
  package : IsNameText companion.package
  className : IsNameText companion.className
  target : IsNameText companion.target
  names : ∀ field ∈ companion.fields, IsNameText field.name
  types : ∀ field ∈ companion.fields, IsTypeText field.type

/-- An identifier is made of the characters of names. -/
lemma isNameText_of_isIdentifier {name : String} (h : isIdentifier name = true) :
    IsNameText name := fun c hc => by
  rw [isNameChar, continuesIdentifier_of_mem h hc, Bool.true_or]

/-- A companion that has a source is named by identifiers. -/
lemma isNameText_of_source (h : companion.source = .ok text) :
    IsNameText companion.package ∧ IsNameText companion.className ∧
      IsNameText companion.target ∧ ∀ field ∈ companion.fields, IsNameText field.name := by
  have hnames := isIdentifier_of_source h
  simp only [identifiers, List.mem_append, or_imp, forall_and] at hnames
  obtain ⟨⟨⟨hpackage, hclass⟩, htarget⟩, hfields⟩ := hnames
  refine ⟨?_, ?_, ?_, ?_⟩
  · by_cases hempty : companion.package.isEmpty = true
    · rw [String.isEmpty_iff.mp hempty]
      decide +kernel
    · rw [if_neg hempty] at hpackage
      exact isNameText_of_segments fun segment hsegment c hc =>
        continuesIdentifier_of_mem (hpackage segment hsegment) hc
  · exact isNameText_of_isIdentifier (hclass _ (List.mem_singleton.mpr rfl))
  · exact isNameText_of_segments fun segment hsegment c hc =>
      continuesIdentifier_of_mem (htarget segment hsegment) hc
  · exact fun field hfield => isNameText_of_isIdentifier (hfields _ (List.mem_map_of_mem hfield))

/-- The type that is cast to is one line if the type of the field is. -/
lemma isLine_castType {type : String} (h : IsLine type) : IsLine (castType type) := by
  unfold castType
  split
  · next kind _ => cases kind <;> decide +kernel
  · exact h

/-! ### Sources -/

lemma isLine_classComment (h : IsLine companion.target) : IsLine companion.classComment := by
  unfold classComment
  split
  · exact isLine_between (by decide +kernel) h (by decide +kernel)
  · exact isLine_between (by decide +kernel) h (by decide +kernel)

lemma isLine_methodHead {name target : String} (hname : IsLine name) (htarget : IsLine target) :
    IsLine (methodHead name target) := by
  unfold methodHead
  refine isLine_between ?_ htarget (by decide +kernel)
  exact isLine_between (by decide +kernel) hname (by decide +kernel)

lemma isLine_writeStatement {field : Binding} (h : IsLine field.name) :
    IsLine (writeStatement field) := by
  unfold writeStatement
  exact isLine_between (by decide +kernel) h (by decide +kernel)

lemma isLine_readStatement {field : Binding} (hname : IsLine field.name)
    (htype : IsLine (castType field.type)) : IsLine (readStatement field) := by
  unfold readStatement
  refine isLine_between ?_ htype (by decide +kernel)
  exact isLine_between (by decide +kernel) hname (by decide +kernel)

/-- No line of a source is broken, provided that no type of a field has a line feed. -/
lemma isLine_of_mem_sourceLines (h : companion.source = .ok text)
    (htypes : ∀ field ∈ companion.fields, IsLine field.type) :
    ∀ line ∈ companion.sourceLines, IsLine line := by
  obtain ⟨hpackageText, hclassText, htargetText, hnames⟩ := isNameText_of_source h
  have hclass := hclassText.isLine
  have htarget := htargetText.isLine
  have hpackage : ∀ line ∈ if companion.package.isEmpty then []
      else ["package " ++ companion.package ++ ";"], IsLine line := by
    split
    · exact nofun
    · rw [List.forall_mem_singleton]
      exact isLine_between (by decide +kernel) hpackageText.isLine (by decide +kernel)
  have hindented : ∀ {statement}, IsLine statement → IsLine ("        " ++ statement) :=
    fun hstatement => isLine_append_iff.mpr ⟨by decide +kernel, hstatement⟩
  have hwrites : ∀ field ∈ companion.fields, IsLine ("        " ++ writeStatement field) :=
    fun field hfield => hindented (isLine_writeStatement (hnames field hfield).isLine)
  have hreads : ∀ field ∈ companion.fields, IsLine ("        " ++ readStatement field) :=
    fun field hfield => hindented (isLine_readStatement (hnames field hfield).isLine
      (isLine_castType (htypes field hfield)))
  unfold sourceLines
  simp only [List.forall_mem_append, List.forall_mem_cons, List.forall_mem_map, List.not_mem_nil,
    false_implies, implies_true, and_true]
  refine ⟨⟨⟨⟨⟨⟨by decide +kernel, hpackage⟩, ?_⟩, hwrites⟩, ?_⟩, hreads⟩, by decide +kernel⟩
  · refine ⟨by decide +kernel, by decide +kernel, by decide +kernel, isLine_classComment htarget,
      ?_, ?_, by decide +kernel, by decide +kernel, isLine_methodHead (by decide +kernel) htarget⟩
    · exact isLine_between (by decide +kernel) hclass (by decide +kernel)
    · exact isLine_between (by decide +kernel) hclass (by decide +kernel)
  · refine ⟨by decide +kernel, by decide +kernel, isLine_methodHead (by decide +kernel) htarget, ?_⟩
    exact isLine_between (by decide +kernel) htarget (by decide +kernel)

/-- The frame of a source has sixteen lines, and one more for a package. -/
lemma length_sourceLines (companion : Companion) :
    companion.sourceLines.length =
      (if companion.package.isEmpty then 16 else 17) + 2 * companion.fields.length := by
  simp only [sourceLines, List.length_append, List.length_map, List.length_cons, List.length_nil]
  split <;> simp <;> omega

/-- The lines of a source are those that were put into it, and an empty one behind the last line
feed, provided that no type of a field has a line feed. -/
lemma splitOn_source (h : companion.source = .ok text)
    (htypes : ∀ field ∈ companion.fields, IsLine field.type) :
    text.toList.splitOn '\n' = companion.sourceLines.map String.toList ++ [[]] := by
  have hlines := isLine_of_mem_sourceLines h htypes
  rw [source] at h
  split at h
  · cases h
  · obtain rfl := Except.ok.inj h
    exact splitOn_join_lines hlines

lemma linesOf_source (h : companion.source = .ok text)
    (htypes : ∀ field ∈ companion.fields, IsLine field.type) :
    linesOf text = companion.sourceLines ++ [""] := by
  rw [linesOf, splitOn_source h htypes, List.map_append, List.map_map]
  congr 1
  exact List.map_id'' (fun line => String.ofList_toList) _

/-- The lines of the source of a confined companion are those that were put into it. -/
lemma IsConfined.splitOn_source (h : companion.IsConfined) (htext : companion.source = .ok text) :
    text.toList.splitOn '\n' = companion.sourceLines.map String.toList ++ [[]] :=
  Companion.splitOn_source htext fun field hfield => (h.types field hfield).isLine

end Companion

end ParcelCompanion
