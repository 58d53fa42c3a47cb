import Mathlib.Data.List.DropRight
import ParcelCompanion.Proofs.Json.Token

/-!
# Whatever spells a value is read as that value

The grammar of what is written, as a relation between characters and the part of a value that they
spell, with any blanks between the tokens.  The reader follows the grammar, one lemma for each way to
spell a part.  It may go down only so far, but every step down has a character of its own.
-/

namespace ParcelCompanion.Json

/-! ### The grammar -/

/-- What characters may spell. -/
inductive Part where
  | value (value : Value)
  /-- The items of an array, of which there is at least one, and the bracket after them. -/
  | items (items : List Value)
  /-- The members of an object, of which there is at least one, and the brace after them. -/
  | members (members : List (Text × Value))

/-- The characters are all blank. -/
def Blanks (gap : List Char) : Prop :=
  ∀ c ∈ gap, isBlank c = true

/-- The characters spell the part.  There may be blanks in front of any part and of any mark, and
strings are spelled as they are written. -/
inductive Spells : List Char → Part → Prop
  | blank {c cs part} : isBlank c = true → Spells cs part → Spells (c :: cs) part
  | null : Spells ['n', 'u', 'l', 'l'] (.value .null)
  | bool (value : Bool) : Spells (Value.bool value).compact.toList (.value (.bool value))
  | number {spelling} : IsNumeral spelling → Spells spelling.toList (.value (.number spelling))
  | string (text : Text) : Spells (writeText text).toList (.value (.string text))
  | noItems {gap} : Blanks gap → Spells ('[' :: (gap ++ [']'])) (.value (.array []))
  | array {cs items} : Spells cs (.items items) → Spells ('[' :: cs) (.value (.array items))
  | lastItem {cs gap item} : Spells cs (.value item) → Blanks gap →
      Spells (cs ++ (gap ++ [']'])) (.items [item])
  | item {cs gap rest item items} : Spells cs (.value item) → Blanks gap →
      Spells rest (.items items) → Spells (cs ++ (gap ++ ',' :: rest)) (.items (item :: items))
  | noMembers {gap} : Blanks gap → Spells ('\x7b' :: (gap ++ ['\x7d'])) (.value (.object []))
  | object {cs members} : Spells cs (.members members) →
      Spells ('\x7b' :: cs) (.value (.object members))
  | lastMember {cs gap gap' value} (key : Text) : Blanks gap → Spells cs (.value value) → Blanks gap' →
      Spells ((writeText key).toList ++ (gap ++ ':' :: (cs ++ (gap' ++ ['\x7d']))))
        (.members [(key, value)])
  | member {cs gap gap' rest value members} (key : Text) : Blanks gap → Spells cs (.value value) →
      Blanks gap' → Spells rest (.members members) →
      Spells ((writeText key).toList ++ (gap ++ ':' :: (cs ++ (gap' ++ ',' :: rest))))
        (.members ((key, value) :: members))

variable {cs gap rest : List Char} {c : Char} {part : Part}

/-! ### Blanks -/

lemma skipBlanks_cons (hc : isBlank c = true) (cs : List Char) :
    skipBlanks (c :: cs) = skipBlanks cs :=
  List.dropWhile_cons_of_pos hc

lemma skipBlanks_of_not_isBlank (hc : isBlank c = false) (cs : List Char) :
    skipBlanks (c :: cs) = c :: cs :=
  List.dropWhile_cons_of_neg (by rw [hc]; decide)

lemma skipBlanks_skipBlanks (cs : List Char) : skipBlanks (skipBlanks cs) = skipBlanks cs :=
  List.dropWhile_idempotent isBlank cs

/-- Blanks in front of a mark are skipped. -/
lemma skipBlanks_gap (hgap : Blanks gap) (hc : isBlank c = false) (cs : List Char) :
    skipBlanks (gap ++ c :: cs) = c :: cs := by
  rw [skipBlanks, List.dropWhile_append_of_pos hgap]
  exact skipBlanks_of_not_isBlank hc cs

/-- No number goes on with blanks and a mark behind them. -/
lemma endsNumber_gap (hgap : Blanks gap) (hc : c ∈ [',', ']', '\x7d']) (cs : List Char) :
    EndsNumber (gap ++ c :: cs) := by
  have hstop : ∀ d, d ∈ [' ', '\t', '\n', '\r', ',', ']', '\x7d'] →
      d.isDigit = false ∧ d ≠ '.' ∧ d ≠ 'e' ∧ d ≠ 'E' := by
    simp only [List.forall_mem_cons, List.not_mem_nil, false_implies, implies_true, and_true]
    decide
  intro d hd
  refine hstop d ?_
  cases gap with
  | nil =>
    obtain rfl := Option.some.inj hd
    exact List.mem_append_right [' ', '\t', '\n', '\r'] hc
  | cons b gap =>
    obtain rfl := Option.some.inj hd
    have hblank := hgap b List.mem_cons_self
    simp only [isBlank, Bool.or_eq_true, beq_iff_eq] at hblank
    have hmem : b ∈ [' ', '\t', '\n', '\r'] := by simpa [or_assoc] using hblank
    exact List.mem_append_left _ hmem

-- the readers are unfolded wherever a step down is given
attribute [local simp] readValue readItems readMembers readWord

/-- The readers do not care about blanks in front. -/
lemma readValue_skipBlanks (depth : Nat) (cs : List Char) :
    readValue depth (skipBlanks cs) = readValue depth cs := by
  cases depth with
  | zero => rfl
  | succ depth => rw [readValue, readValue, skipBlanks_skipBlanks]

lemma readItems_skipBlanks (depth : Nat) (cs : List Char) :
    readItems depth (skipBlanks cs) = readItems depth cs := by
  cases depth with
  | zero => rfl
  | succ depth => rw [readItems, readItems, readValue_skipBlanks]

lemma readMembers_skipBlanks (depth : Nat) (cs : List Char) :
    readMembers depth (skipBlanks cs) = readMembers depth cs := by
  cases depth with
  | zero => rfl
  | succ depth => rw [readMembers, readMembers, skipBlanks_skipBlanks]

/-! ### Values, items and members -/

lemma readValue_null (depth : Nat) (rest : List Char) :
    readValue (depth + 1) ('n' :: 'u' :: 'l' :: 'l' :: rest) = some (.null, rest) := by
  simp [skipBlanks_of_not_isBlank (show isBlank 'n' = false by decide)]

lemma readValue_bool (value : Bool) (depth : Nat) (rest : List Char) :
    readValue (depth + 1) ((Value.bool value).compact.toList ++ rest) =
      some (.bool value, rest) := by
  cases value with
  | false =>
    rw [show (Value.bool false).compact.toList = ['f', 'a', 'l', 's', 'e'] by decide]
    simp [skipBlanks_of_not_isBlank (show isBlank 'f' = false by decide)]
  | true =>
    rw [show (Value.bool true).compact.toList = ['t', 'r', 'u', 'e'] by decide]
    simp [skipBlanks_of_not_isBlank (show isBlank 't' = false by decide)]

lemma readValue_string (text : Text) (depth : Nat) (rest : List Char) :
    readValue (depth + 1) ((writeText text).toList ++ rest) = some (.string text, rest) := by
  obtain ⟨cs, hcs, hread⟩ := exists_writeText text
  simp [hcs, hread, skipBlanks_of_not_isBlank (show isBlank '"' = false by decide)]

/-- What starts with a sign or a digit is read as a number. -/
lemma readValue_number {spelling : String} (h : IsNumeral spelling) (hrest : EndsNumber rest)
    (depth : Nat) :
    readValue (depth + 1) (spelling.toList ++ rest) = some (.number spelling, rest) := by
  obtain ⟨c, cs, hcs, hc⟩ := h.exists_cons
  have hread := readNumber_append h hrest
  have hne : ∀ d, ¬ (d = '-' ∨ d.isDigit = true) → c ≠ d := fun d hd heq => hd (heq ▸ hc)
  have hblank : isBlank c = false := by
    simp only [isBlank, Bool.or_eq_false_iff, beq_eq_false_iff_ne]
    exact ⟨⟨⟨hne _ (by decide), hne _ (by decide)⟩, hne _ (by decide)⟩, hne _ (by decide)⟩
  rw [hcs, List.cons_append] at hread ⊢
  rw [readValue, skipBlanks_of_not_isBlank hblank]
  split
  case h_7 =>
    rw [hread]
    rfl
  all_goals
    rename_i heq
    exact absurd (List.cons.inj heq).1 (hne _ (by decide))

lemma readValue_noItems (hgap : Blanks gap) (depth : Nat) (rest : List Char) :
    readValue (depth + 1) ('[' :: (gap ++ ']' :: rest)) = some (.array [], rest) := by
  simp [skipBlanks_of_not_isBlank (show isBlank '[' = false by decide),
    skipBlanks_gap hgap (show isBlank ']' = false by decide)]

lemma readValue_noMembers (hgap : Blanks gap) (depth : Nat) (rest : List Char) :
    readValue (depth + 1) ('\x7b' :: (gap ++ '\x7d' :: rest)) = some (.object [], rest) := by
  simp [skipBlanks_of_not_isBlank (show isBlank '\x7b' = false by decide),
    skipBlanks_gap hgap (show isBlank '\x7d' = false by decide)]

/-- Items are not read behind a bracket that closes an array. -/
lemma readItems_bracket (depth : Nat) (cs : List Char) : readItems depth (']' :: cs) = none := by
  rcases depth with _ | _ | depth
  · rfl
  · rfl
  · rw [readItems, readValue, skipBlanks_of_not_isBlank (by decide)]
    rfl

lemma readMembers_brace (depth : Nat) (cs : List Char) : readMembers depth ('\x7d' :: cs) = none := by
  cases depth with
  | zero => rfl
  | succ depth =>
    rw [readMembers, skipBlanks_of_not_isBlank (by decide)]
    rfl

lemma readValue_array {items : List Value} {depth : Nat}
    (h : readItems depth cs = some (items, rest)) :
    readValue (depth + 1) ('[' :: cs) = some (.array items, rest) := by
  rw [← readItems_skipBlanks] at h
  simp only [readValue, skipBlanks_of_not_isBlank (show isBlank '[' = false by decide)]
  split
  · next heq =>
    rw [heq, readItems_bracket] at h
    cases h
  · rw [h]
    rfl

lemma readValue_object {members : List (Text × Value)} {depth : Nat}
    (h : readMembers depth cs = some (members, rest)) :
    readValue (depth + 1) ('\x7b' :: cs) = some (.object members, rest) := by
  rw [← readMembers_skipBlanks] at h
  simp only [readValue, skipBlanks_of_not_isBlank (show isBlank '\x7b' = false by decide)]
  split
  · next heq =>
    rw [heq, readMembers_brace] at h
    cases h
  · rw [h]
    rfl

/-- An item is the last one if a bracket follows it. -/
lemma readItems_last {item : Value} {depth : Nat} {cs' : List Char}
    (hitem : readValue depth cs = some (item, cs')) (hbracket : skipBlanks cs' = ']' :: rest) :
    readItems (depth + 1) cs = some ([item], rest) := by
  simp [hitem, hbracket]

/-- A comma behind an item has further items behind it. -/
lemma readItems_next {item : Value} {items : List Value} {depth : Nat} {cs' cs'' : List Char}
    (hitem : readValue depth cs = some (item, cs')) (hcomma : skipBlanks cs' = ',' :: cs'')
    (hitems : readItems depth cs'' = some (items, rest)) :
    readItems (depth + 1) cs = some (item :: items, rest) := by
  simp [hitem, hcomma, hitems]

/-- A member is the last one if a brace follows its value. -/
lemma readMembers_last {value : Value} {depth : Nat} {cs' : List Char} (key : Text)
    (hgap : Blanks gap) (hvalue : readValue depth cs = some (value, cs'))
    (hbrace : skipBlanks cs' = '\x7d' :: rest) :
    readMembers (depth + 1) ((writeText key).toList ++ (gap ++ ':' :: cs)) =
      some ([(key, value)], rest) := by
  obtain ⟨ks, hkey, hread⟩ := exists_writeText key
  rw [hkey, List.cons_append]
  simp [skipBlanks_of_not_isBlank (show isBlank '"' = false by decide), hread,
    skipBlanks_gap hgap (show isBlank ':' = false by decide), hvalue, hbrace]

/-- A comma behind a member has further members behind it. -/
lemma readMembers_next {value : Value} {members : List (Text × Value)} {depth : Nat}
    {cs' cs'' : List Char} (key : Text) (hgap : Blanks gap)
    (hvalue : readValue depth cs = some (value, cs')) (hcomma : skipBlanks cs' = ',' :: cs'')
    (hmembers : readMembers depth cs'' = some (members, rest)) :
    readMembers (depth + 1) ((writeText key).toList ++ (gap ++ ':' :: cs)) =
      some ((key, value) :: members, rest) := by
  obtain ⟨ks, hkey, hread⟩ := exists_writeText key
  rw [hkey, List.cons_append]
  simp [skipBlanks_of_not_isBlank (show isBlank '"' = false by decide), hread,
    skipBlanks_gap hgap (show isBlank ':' = false by decide), hvalue, hcomma, hmembers]

/-! ### The reader -/

/-- The reader of a part takes just the given characters, whatever comes behind them, and gives the
part. -/
def IsReadFrom (cs : List Char) : Part → Prop
  | .value value => ∀ depth rest, 2 * cs.length ≤ depth + 1 → EndsNumber rest →
      readValue depth (cs ++ rest) = some (value, rest)
  | .items items => ∀ depth rest, 2 * cs.length ≤ depth →
      readItems depth (cs ++ rest) = some (items, rest)
  | .members members => ∀ depth rest, 2 * cs.length ≤ depth →
      readMembers depth (cs ++ rest) = some (members, rest)

lemma IsReadFrom.blank (h : IsReadFrom cs part) (hc : isBlank c = true) :
    IsReadFrom (c :: cs) part := by
  cases part with
  | value value =>
    intro depth rest hdepth hrest
    rw [List.cons_append, ← readValue_skipBlanks, skipBlanks_cons hc, readValue_skipBlanks]
    exact h depth rest (by rw [List.length_cons] at hdepth; omega) hrest
  | items items =>
    intro depth rest hdepth
    rw [List.cons_append, ← readItems_skipBlanks, skipBlanks_cons hc, readItems_skipBlanks]
    exact h depth rest (by rw [List.length_cons] at hdepth; omega)
  | members members =>
    intro depth rest hdepth
    rw [List.cons_append, ← readMembers_skipBlanks, skipBlanks_cons hc, readMembers_skipBlanks]
    exact h depth rest (by rw [List.length_cons] at hdepth; omega)

/-- One character is enough for a step down. -/
lemma exists_depth {n depth : Nat} (h : 2 * (n + 1) ≤ depth + 1) : ∃ d, depth = d + 1 ∧ 2 * n ≤ d :=
  ⟨depth - 1, by omega, by omega⟩

/-- The reader follows the grammar. -/
theorem Spells.isReadFrom (h : Spells cs part) : IsReadFrom cs part := by
  induction h with
  | blank hc _ ih => exact ih.blank hc
  | null =>
    intro depth rest hdepth _
    obtain ⟨depth, rfl, -⟩ := exists_depth hdepth
    exact readValue_null depth rest
  | bool value =>
    intro depth rest hdepth _
    have hpos : 0 < (Value.bool value).compact.toList.length := by cases value <;> decide
    obtain ⟨depth, rfl⟩ : ∃ d, depth = d + 1 := ⟨depth - 1, by omega⟩
    exact readValue_bool value depth rest
  | number hspelling =>
    intro depth rest hdepth hrest
    obtain ⟨c, cs, hcs, -⟩ := hspelling.exists_cons
    rw [hcs] at hdepth
    obtain ⟨depth, rfl, -⟩ := exists_depth hdepth
    exact readValue_number hspelling hrest depth
  | string text =>
    intro depth rest hdepth _
    obtain ⟨cs, hcs, -⟩ := exists_writeText text
    rw [hcs] at hdepth
    obtain ⟨depth, rfl, -⟩ := exists_depth hdepth
    exact readValue_string text depth rest
  | noItems hgap =>
    intro depth rest hdepth _
    obtain ⟨depth, rfl, -⟩ := exists_depth hdepth
    simp only [List.cons_append, List.append_assoc, List.nil_append]
    exact readValue_noItems hgap depth rest
  | array _ ih =>
    intro depth rest hdepth _
    obtain ⟨depth, rfl, hcs⟩ := exists_depth hdepth
    exact readValue_array (ih depth rest hcs)
  | lastItem _ hgap ih =>
    intro depth rest hdepth
    simp only [List.length_append, List.length_cons] at hdepth
    obtain ⟨depth, rfl⟩ : ∃ d, depth = d + 1 := ⟨depth - 1, by omega⟩
    simp only [List.append_assoc, List.cons_append, List.nil_append]
    exact readItems_last (ih depth _ (by omega) (endsNumber_gap hgap (by decide) _))
      (skipBlanks_gap hgap (by decide) rest)
  | item _ hgap _ ih ihrest =>
    intro depth rest hdepth
    simp only [List.length_append, List.length_cons] at hdepth
    obtain ⟨depth, rfl⟩ : ∃ d, depth = d + 1 := ⟨depth - 1, by omega⟩
    simp only [List.append_assoc, List.cons_append]
    exact readItems_next (ih depth _ (by omega) (endsNumber_gap hgap (by decide) _))
      (skipBlanks_gap hgap (by decide) _) (ihrest depth rest (by omega))
  | noMembers hgap =>
    intro depth rest hdepth _
    obtain ⟨depth, rfl, -⟩ := exists_depth hdepth
    simp only [List.cons_append, List.append_assoc, List.nil_append]
    exact readValue_noMembers hgap depth rest
  | object _ ih =>
    intro depth rest hdepth _
    obtain ⟨depth, rfl, hcs⟩ := exists_depth hdepth
    exact readValue_object (ih depth rest hcs)
  | lastMember key hgap _ hgap' ih =>
    intro depth rest hdepth
    simp only [List.length_append, List.length_cons] at hdepth
    obtain ⟨depth, rfl⟩ : ∃ d, depth = d + 1 := ⟨depth - 1, by omega⟩
    simp only [List.append_assoc, List.cons_append, List.nil_append]
    exact readMembers_last key hgap (ih depth _ (by omega) (endsNumber_gap hgap' (by decide) _))
      (skipBlanks_gap hgap' (by decide) rest)
  | member key hgap _ hgap' _ ih ihrest =>
    intro depth rest hdepth
    simp only [List.length_append, List.length_cons] at hdepth
    obtain ⟨depth, rfl⟩ : ∃ d, depth = d + 1 := ⟨depth - 1, by omega⟩
    simp only [List.append_assoc, List.cons_append]
    exact readMembers_next key hgap (ih depth _ (by omega) (endsNumber_gap hgap' (by decide) _))
      (skipBlanks_gap hgap' (by decide) _) (ihrest depth rest (by omega))

/-- A text that spells a value is read as the value. -/
theorem parse_of_spells {text : String} {value : Value} (h : Spells text.toList (.value value)) :
    parse text = some value := by
  have hread := h.isReadFrom (2 * text.toList.length + 1) [] (by omega) nofun
  rw [List.append_nil] at hread
  rw [parse, hread]
  rfl

end ParcelCompanion.Json
