import ParcelCompanion.Proofs.Written.Lexing
import ParcelCompanion.Written.Parse

/-!
# Where the cutting of a text stops

A text that is no sequence of tokens has a first place at which neither white space nor a token
begins.  `StopsBetween` describes that place by what is before it and behind it: the part before is
a sequence of tokens, nothing begins the part behind, and no word runs across the place.  The last
condition is needed, since a digit begins no token and still belongs to the word before it.

The scanner refuses a text exactly at such a place, and names the character there together with the
number of bytes before it.  So a text either splits as a whole or stops at one place.
-/

namespace ParcelCompanion.WrittenType

namespace Token

/-! ### What begins with white space or a token -/

/-- White space or a token begins the characters. -/
inductive Begins : List Char → Prop
  | space {c : Char} (hspace : Text.isWhiteSpace c = true) (cs : List Char) : Begins (c :: cs)
  | word {word : List Char} (hword : IsWord word) (rest : List Char) : Begins (word ++ rest)
  | mark {mark : Token} (hmark : mark.isMark = true) (rest : List Char) :
    Begins (mark.text.toList ++ rest)

/-- What begins is told from the first character, and after an opening bracket from the next. -/
lemma begins_cons_iff {c : Char} {cs : List Char} :
    Begins (c :: cs) ↔ Text.isWhiteSpace c = true ∨ startsWord c = true ∨
      (c = '[' ∧ cs.head? = some ']') ∨ ∃ mark, mark? c = some mark := by
  constructor
  · intro h
    generalize hchars : c :: cs = chars at h
    cases h with
    | space hspace =>
      obtain ⟨rfl, -⟩ := List.cons.inj hchars
      exact .inl hspace
    | word hword rest =>
      obtain ⟨d, ds, rfl, hd, -⟩ := hword
      obtain ⟨rfl, -⟩ := List.cons.inj hchars
      exact .inr (.inl hd)
    | @mark mark hmark rest =>
      refine .inr (.inr ?_)
      cases mark with
      | word text => exact nomatch hmark
      | brackets =>
        obtain ⟨rfl, rfl⟩ := List.cons.inj hchars
        exact .inl ⟨rfl, rfl⟩
      | _ =>
        obtain ⟨rfl, -⟩ := List.cons.inj hchars
        exact .inr ⟨_, rfl⟩
  · rintro (hspace | hstart | ⟨rfl, hhead⟩ | ⟨mark, hmark⟩)
    · exact .space hspace cs
    · exact .word ⟨c, [], rfl, hstart, nofun⟩ cs
    · obtain ⟨cs, rfl⟩ := List.head?_eq_some_iff.mp hhead
      exact @Begins.mark .brackets rfl cs
    · obtain ⟨hmark, htext⟩ := mark?_eq_some_iff.mp hmark
      have hbegins := Begins.mark hmark cs
      rwa [htext] at hbegins

lemma not_begins_cons_iff {c : Char} {cs : List Char} :
    ¬ Begins (c :: cs) ↔ ¬ Text.isWhiteSpace c = true ∧ ¬ startsWord c = true ∧
      ¬ (c = '[' ∧ cs.head? = some ']') ∧ mark? c = none := by
  rw [begins_cons_iff, not_or, not_or, not_or, not_exists, Option.eq_none_iff_forall_ne_some]

/-! ### Places between characters -/

/-- No word runs across the place between two parts of a text. -/
def Apart (before rest : List Char) : Prop :=
  ∀ d ∈ before.getLast?, continuesWord d = true → ∀ c ∈ rest.head?, continuesWord c = false

lemma apart_nil (rest : List Char) : Apart [] rest := by
  intro d hd
  rw [List.getLast?_nil] at hd
  exact absurd hd (Option.not_mem_none d)

/-- If no word runs across a place, none does when only the later part of what is in front of it is
there. -/
lemma Apart.of_append {piece before rest : List Char} (h : Apart (piece ++ before) rest) :
    Apart before rest := by
  intro d hd
  refine h d ?_
  rw [Option.mem_def] at hd ⊢
  rw [List.getLast?_append, hd, Option.some_or]

/-- If no word runs across a place, none does after a piece was put in front of everything.  When
nothing was in front of the place, no word may run across between the piece and the rest. -/
lemma Apart.append {piece before rest : List Char} (h : Apart before rest)
    (hpiece : before = [] → Apart piece rest) : Apart (piece ++ before) rest := by
  rcases eq_or_ne before [] with rfl | hne
  · rw [List.append_nil]
    exact hpiece rfl
  · intro d hd
    rw [List.getLast?_append_of_ne_nil piece hne] at hd
    exact h d hd

/-- Only the characters of words can run across a place. -/
lemma apart_of_forall {piece : List Char} (h : ∀ d ∈ piece, ¬ continuesWord d = true)
    (rest : List Char) : Apart piece rest := by
  intro d hd hcontinues
  exact absurd hcontinues (h d (List.mem_of_getLast? hd))

/-- A text stops between its parts: the part before is a sequence of tokens, neither white space
nor a token begins the part behind, and no word runs across. -/
structure StopsBetween (before rest : List Char) : Prop where
  splits : ∃ tokens, Splits before tokens
  apart : Apart before rest
  stuck : ¬ Begins rest

section StopsBetween

variable {before rest : List Char}

lemma StopsBetween.space {c : Char} (hspace : Text.isWhiteSpace c = true)
    (h : StopsBetween before rest) : StopsBetween (c :: before) rest := by
  have hc : ¬ continuesWord c = true := by
    rw [continuesWord_eq_false_of_isWhiteSpace hspace]
    exact Bool.false_ne_true
  have hapart : Apart ([c] ++ before) rest :=
    h.apart.append fun _ => apart_of_forall (List.forall_mem_singleton.mpr hc) rest
  obtain ⟨tokens, hsplits⟩ := h.splits
  exact ⟨⟨tokens, .space hspace hsplits⟩, hapart, h.stuck⟩

lemma StopsBetween.word {word : List Char} (hword : IsWord word)
    (hlongest : ∀ c ∈ (before ++ rest).head?, continuesWord c = false)
    (h : StopsBetween before rest) : StopsBetween (word ++ before) rest := by
  have hapart : Apart (word ++ before) rest := by
    refine h.apart.append ?_
    rintro rfl d - - c hc
    exact hlongest c hc
  have hlongest' : ∀ c ∈ before.head?, continuesWord c = false := by
    intro c hc
    refine hlongest c ?_
    rw [Option.mem_def] at hc ⊢
    rw [List.head?_append, hc, Option.some_or]
  obtain ⟨tokens, hsplits⟩ := h.splits
  exact ⟨⟨_, .word hword hlongest' hsplits⟩, hapart, h.stuck⟩

lemma StopsBetween.mark {mark : Token} (hmark : mark.isMark = true)
    (h : StopsBetween before rest) : StopsBetween (mark.text.toList ++ before) rest := by
  have hchars : ∀ d ∈ mark.text.toList, ¬ continuesWord d = true := by
    cases mark with
    | word text => exact nomatch hmark
    | _ => exact List.any_eq_false.mp (by decide +kernel)
  obtain ⟨tokens, hsplits⟩ := h.splits
  exact ⟨⟨_, .mark hmark hsplits⟩, h.apart.append fun _ => apart_of_forall hchars rest, h.stuck⟩

end StopsBetween

/-! ### The scanner -/

/-- At a character with which nothing begins, the scanner stops. -/
lemma scan_of_not_begins {c : Char} {cs : List Char} (h : ¬ Begins (c :: cs)) (offset : ℕ) :
    scan offset (c :: cs) = .error ⟨c, offset⟩ := by
  obtain ⟨hspace, hstart, hbrackets, hmark⟩ := not_begins_cons_iff.mp h
  rw [scan, if_neg hspace, if_neg hstart, if_neg hbrackets, hmark]

lemma width_append (cs cs' : List Char) : width (cs ++ cs') = width cs + width cs' := by
  induction cs with
  | nil => rw [List.nil_append, width, Nat.zero_add]
  | cons c cs ih => rw [List.cons_append, width, width, ih, Nat.add_assoc]

/-- The marks of one character take one byte. -/
lemma utf8Size_of_mark? {c : Char} {mark : Token} (h : mark? c = some mark) : c.utf8Size = 1 := by
  unfold mark? at h
  split at h
  case h_6 => exact nomatch h
  all_goals rfl

/-- A part that splits is cut off first, and the scanner goes on behind it. -/
lemma scan_append {cs rest : List Char} {tokens : List Token} (h : Splits cs tokens)
    (hapart : Apart cs rest) (offset : ℕ) :
    scan offset (cs ++ rest) = do
      let more ← scan (offset + width cs) rest
      return tokens ++ more := by
  induction h generalizing offset with
  | nil =>
    rw [List.nil_append, width, Nat.add_zero]
    exact (bind_pure _).symm
  | @space c cs tokens hspace h ih =>
    have hrest : Apart cs rest := @Apart.of_append [c] cs rest hapart
    rw [List.cons_append, scan_space hspace, ih hrest, width, Nat.add_assoc]
  | @word word cs tokens hword hlongest h ih =>
    have hlongest' : ∀ c ∈ (cs ++ rest).head?, continuesWord c = false := by
      cases cs with
      | nil =>
        -- The word ends at the place, and its last character is one of a word.
        rw [List.append_nil] at hapart
        have hlast := List.getLast?_eq_some_getLast hword.ne_nil
        exact hapart _ hlast (hword.forall_continuesWord _ (List.getLast_mem hword.ne_nil))
      | cons c cs => exact hlongest
    rw [List.append_assoc, scan_word hword hlongest', ih hapart.of_append, width_append,
      Nat.add_assoc, bind_assoc]
    rfl
  | @mark mark cs tokens hmark h ih =>
    rw [List.append_assoc, scan_mark hmark, ih hapart.of_append, width_append, Nat.add_assoc,
      bind_assoc]
    rfl

/-- Where the scanner fails, the characters stop. -/
lemma exists_stop_of_scan_eq_error {offset : ℕ} {cs : List Char} {stray : Stray}
    (h : scan offset cs = .error stray) :
    ∃ before after, cs = before ++ stray.char :: after ∧ stray.offset = offset + width before ∧
      StopsBetween before (stray.char :: after) := by
  -- What the scanner takes off is put in front of the part before the place that it comes to.
  fun_induction scan offset cs with
  | case1 offset => cases h
  | case2 offset c cs hspace ih =>
    obtain ⟨before, after, rfl, hoffset, hstop⟩ := ih h
    refine ⟨c :: before, after, rfl, ?_, hstop.space hspace⟩
    rw [hoffset, width, Nat.add_assoc]
  | case3 offset c cs hspace hstart more =>
    rename_i ih
    obtain ⟨before, after, hrest, hoffset, hstop⟩ := ih (bind_pure_eq_error_iff.mp h)
    have hlongest := continuesWord_head?_dropWhile cs
    rw [hrest] at hlongest
    refine ⟨(c :: more) ++ before, after, ?_, ?_, hstop.word (isWord_takeWhile hstart cs) hlongest⟩
    · rw [List.append_assoc, ← hrest, List.cons_append, List.takeWhile_append_dropWhile]
    · rw [hoffset, width_append, Nat.add_assoc]
  | case4 offset c cs hspace hstart hbrackets ih =>
    obtain ⟨rfl, hhead⟩ := hbrackets
    obtain ⟨cs, rfl⟩ := List.head?_eq_some_iff.mp hhead
    obtain ⟨before, after, rfl, hoffset, hstop⟩ := ih (bind_pure_eq_error_iff.mp h)
    refine ⟨'[' :: ']' :: before, after, rfl, ?_, @StopsBetween.mark _ _ .brackets rfl hstop⟩
    have hwidth : width ('[' :: ']' :: before) = 2 + width before :=
      (Nat.add_assoc 1 1 (width before)).symm
    rw [hoffset, hwidth, Nat.add_assoc]
  | case5 offset c cs hspace hstart hbrackets mark hmark ih =>
    obtain ⟨before, after, rfl, hoffset, hstop⟩ := ih (bind_pure_eq_error_iff.mp h)
    have hwidth : c.utf8Size = 1 := utf8Size_of_mark? hmark
    obtain ⟨hmark, htext⟩ := mark?_eq_some_iff.mp hmark
    have hstop' := hstop.mark hmark
    rw [htext] at hstop'
    refine ⟨c :: before, after, rfl, ?_, hstop'⟩
    rw [hoffset, width, hwidth, Nat.add_assoc]
  | case6 offset c cs hspace hstart hbrackets hmark =>
    obtain rfl := Except.error.inj h
    refine ⟨[], cs, rfl, rfl, ⟨[], .nil⟩, apart_nil _, ?_⟩
    exact not_begins_cons_iff.mpr ⟨hspace, hstart, hbrackets, hmark⟩

/-- The scanner fails at the place where the characters stop, and nowhere else. -/
theorem scan_eq_error_iff {offset : ℕ} {cs : List Char} {stray : Stray} :
    scan offset cs = .error stray ↔ ∃ before after, cs = before ++ stray.char :: after ∧
      stray.offset = offset + width before ∧ StopsBetween before (stray.char :: after) := by
  constructor
  · exact exists_stop_of_scan_eq_error
  · obtain ⟨c, position⟩ := stray
    rintro ⟨before, after, rfl, rfl, ⟨tokens, hsplits⟩, hapart, hstuck⟩
    rw [scan_append hsplits hapart, scan_of_not_begins hstuck]
    rfl

/-! ### Texts -/

lemma width_eq_utf8ByteSize (cs : List Char) : width cs = (String.ofList cs).utf8ByteSize := by
  induction cs with
  | nil => rfl
  | cons c cs ih =>
    rw [width, ih, ← List.singleton_append, String.ofList_append, ← String.singleton_eq_ofList,
      String.utf8ByteSize_append, String.utf8ByteSize_singleton]

/-- A stray character stands in a text where the text stops: it is the character there, and its
offset is the number of bytes before it. -/
def Stray.StandsIn (stray : Stray) (text : String) : Prop :=
  ∃ before after : String, text = before ++ String.singleton stray.char ++ after ∧
    stray.offset = before.utf8ByteSize ∧
    StopsBetween before.toList (stray.char :: after.toList)

/-- A text is refused for the stray character that stands in it. -/
lemma ofText_eq_error_iff {text : String} {stray : Stray} :
    ofText text = .error stray ↔ stray.StandsIn text := by
  rw [ofText, scan_eq_error_iff]
  constructor
  · rintro ⟨before, after, htext, hoffset, hstop⟩
    refine ⟨.ofList before, .ofList after, ?_, ?_, ?_⟩
    · rw [← String.toList_inj]
      simp [htext]
    · rw [hoffset, Nat.zero_add, width_eq_utf8ByteSize]
    · rwa [String.toList_ofList, String.toList_ofList]
  · rintro ⟨before, after, rfl, hoffset, hstop⟩
    refine ⟨before.toList, after.toList, by simp, ?_, hstop⟩
    rw [hoffset, Nat.zero_add, width_eq_utf8ByteSize, String.ofList_toList]

/-- Every text is either a sequence of tokens with white space around them, in which case it is cut
into these, or it is refused for the first character at which neither white space nor a token
begins.  The refusal shows that character and the number of bytes before it. -/
theorem ofText_splits_or_stops (text : String) :
    (∀ tokens, ofText text = .ok tokens ↔ Splits text.toList tokens) ∧
    (∀ stray, ofText text = .error stray ↔ stray.StandsIn text) ∧
    ((∃ tokens, Splits text.toList tokens) ∨
      ∃ stray : Stray, stray.StandsIn text ∧ (parse text).mapError Fault.message =
        .error ("unexpected character '" ++ String.singleton stray.char ++ "' at offset " ++
          toString stray.offset)) := by
  refine ⟨fun _ => ofText_eq_ok_iff, fun _ => ofText_eq_error_iff, ?_⟩
  cases h : ofText text with
  | ok tokens => exact .inl ⟨tokens, ofText_eq_ok_iff.mp h⟩
  | error stray =>
    refine .inr ⟨stray, ofText_eq_error_iff.mp h, ?_⟩
    rw [parse, h]
    rfl

/-- A digit may go on with a word but starts none, and `é` takes two bytes. -/
example : ofText "é1 1" = .error ⟨'1', 4⟩ := by
  decide +kernel

end Token

end ParcelCompanion.WrittenType
