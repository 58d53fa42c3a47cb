import Mathlib.Data.List.TakeWhile
import ParcelCompanion.Proofs.Answer
import ParcelCompanion.Proofs.Lists
import ParcelCompanion.Written.Token

/-!
# Cutting a text into tokens

`Splits` says that a character sequence is a sequence of tokens with white space before, between and
after them, where a word is as long as its characters allow.  It mentions no position, and no order
in which white space, words and marks are tried.  The scanner answers with the tokens of every
sequence that splits, and refuses all others.
-/

namespace ParcelCompanion

namespace Text

/-! ### White space is no letter and no number -/

/-- A character lies in one of the runs when its code point does. -/
lemma inRanges_iff {ranges : List CodeRange} {c : Char} :
    inRanges ranges c = true ↔ ∃ range ∈ ranges, range.1 ≤ c.toNat ∧ c.toNat ≤ range.2 := by
  simp [inRanges]

/-- Runs that do not meet have no character in common. -/
lemma inRanges_eq_false_of_disjoint {ranges ranges' : List CodeRange} {c : Char}
    (hdisjoint : ∀ range ∈ ranges, ∀ range' ∈ ranges', range.2 < range'.1 ∨ range'.2 < range.1)
    (hc : inRanges ranges c = true) : inRanges ranges' c = false := by
  rw [← Bool.not_eq_true]
  intro hc'
  obtain ⟨range, hrange, hlow, hhigh⟩ := inRanges_iff.mp hc
  obtain ⟨range', hrange', hlow', hhigh'⟩ := inRanges_iff.mp hc'
  have hapart := hdisjoint range hrange range' hrange'
  omega

/-- The letters of ASCII are two ranges of code points. -/
lemma isAlpha_eq_inRanges (c : Char) : c.isAlpha = inRanges [(0x41, 0x5A), (0x61, 0x7A)] c := by
  have halpha : c.isAlpha = (decide (0x41 ≤ c.val ∧ c.val ≤ 0x5A) ||
      (decide (0x61 ≤ c.val) && decide (c.val ≤ 0x7A))) := rfl
  simp only [halpha, inRanges, List.any_cons, List.any_nil, Bool.or_false, Bool.decide_and]
  rfl

lemma isLetter_eq_false_of_isWhiteSpace {c : Char} (hc : isWhiteSpace c = true) :
    isLetter c = false := by
  unfold isLetter
  split
  · rw [isAlpha_eq_inRanges]
    refine inRanges_eq_false_of_disjoint ?_ hc
    decide
  · refine inRanges_eq_false_of_disjoint ?_ hc
    decide +kernel

/-- The digits of ASCII are a range of code points. -/
lemma isDigit_eq_inRanges (c : Char) : c.isDigit = inRanges [(0x30, 0x39)] c := by
  have hdigit : c.isDigit = (decide (0x30 ≤ c.val) && decide (c.val ≤ 0x39)) := rfl
  simp only [hdigit, inRanges, List.any_cons, List.any_nil, Bool.or_false]
  rfl

lemma isNumber_eq_false_of_isWhiteSpace {c : Char} (hc : isWhiteSpace c = true) :
    isNumber c = false := by
  unfold isNumber
  split
  · rw [isDigit_eq_inRanges]
    refine inRanges_eq_false_of_disjoint ?_ hc
    decide
  · refine inRanges_eq_false_of_disjoint ?_ hc
    decide +kernel

end Text

namespace WrittenType

namespace Token

/-- A word is a start of a word followed by characters with which it may go on. -/
def IsWord (word : List Char) : Prop :=
  ∃ c cs, word = c :: cs ∧ startsWord c = true ∧ ∀ d ∈ cs, continuesWord d = true

/-- Whether a token is a mark, and so has one text only. -/
def isMark : Token → Bool
  | .word _ => false
  | _ => true

/-- A character sequence is a sequence of tokens and white space. -/
inductive Splits : List Char → List Token → Prop
  | nil : Splits [] []
  | space {c : Char} {cs : List Char} {tokens : List Token} (hspace : Text.isWhiteSpace c = true)
    (h : Splits cs tokens) : Splits (c :: cs) tokens
  | word {word rest : List Char} {tokens : List Token} (hword : IsWord word)
    (hlongest : ∀ c ∈ rest.head?, continuesWord c = false) (h : Splits rest tokens) :
    Splits (word ++ rest) (.word (String.ofList word) :: tokens)
  | mark {mark : Token} {rest : List Char} {tokens : List Token} (hmark : mark.isMark = true)
    (h : Splits rest tokens) : Splits (mark.text.toList ++ rest) (mark :: tokens)

/-! ### Which characters start what -/

/-- A word may go on with what may start it. -/
lemma continuesWord_of_startsWord {c : Char} (hc : startsWord c = true) :
    continuesWord c = true := by
  simp only [startsWord, Bool.or_eq_true] at hc
  simp only [continuesWord, Bool.or_eq_true]
  tauto

lemma IsWord.ne_nil {word : List Char} (h : IsWord word) : word ≠ [] := by
  obtain ⟨c, cs, rfl, -⟩ := h
  exact List.cons_ne_nil c cs

lemma IsWord.forall_continuesWord {word : List Char} (h : IsWord word) :
    ∀ d ∈ word, continuesWord d = true := by
  obtain ⟨c, cs, rfl, hc, hcs⟩ := h
  exact List.forall_mem_cons.mpr ⟨continuesWord_of_startsWord hc, hcs⟩

/-- No word goes on with white space. -/
lemma continuesWord_eq_false_of_isWhiteSpace {c : Char} (hspace : Text.isWhiteSpace c = true) :
    continuesWord c = false := by
  rw [← Bool.not_eq_true]
  intro hc
  have hletter := Text.isLetter_eq_false_of_isWhiteSpace hspace
  have hnumber := Text.isNumber_eq_false_of_isWhiteSpace hspace
  simp only [continuesWord, hletter, hnumber, Bool.false_or, Bool.or_eq_true, beq_iff_eq] at hc
  rcases hc with rfl | rfl <;> exact absurd hspace (by decide)

/-- White space starts no word. -/
lemma isWhiteSpace_eq_false_of_startsWord {c : Char} (hc : startsWord c = true) :
    Text.isWhiteSpace c = false := by
  rw [← Bool.not_eq_true]
  intro hspace
  have hcontinues := continuesWord_eq_false_of_isWhiteSpace hspace
  rw [continuesWord_of_startsWord hc] at hcontinues
  exact nomatch hcontinues

/-- A mark of one character is told by that character. -/
lemma mark?_eq_some_iff {c : Char} {mark : Token} :
    mark? c = some mark ↔ mark.isMark = true ∧ mark.text.toList = [c] := by
  constructor
  · intro h
    unfold mark? at h
    split at h
    case h_6 => exact nomatch h
    all_goals
      obtain rfl := Option.some.inj h
      exact ⟨rfl, rfl⟩
  · rintro ⟨hmark, htext⟩
    cases mark with
    | word text => exact nomatch hmark
    | brackets => simp [text] at htext
    | _ =>
      obtain rfl := List.head_eq_of_cons_eq htext
      rfl

/-- No mark starts with white space, and no word starts or goes on with what a mark starts with. -/
lemma head_text_of_isMark {mark : Token} (hmark : mark.isMark = true) :
    ∃ c cs, mark.text.toList = c :: cs ∧ Text.isWhiteSpace c = false ∧ startsWord c = false ∧
      continuesWord c = false := by
  cases mark with
  | word text => exact nomatch hmark
  | _ => exact ⟨_, _, rfl, by decide +kernel, by decide +kernel, by decide +kernel⟩

/-! ### The scanner -/

lemma scan_space {c : Char} (hspace : Text.isWhiteSpace c = true) (offset : ℕ) (cs : List Char) :
    scan offset (c :: cs) = scan (offset + c.utf8Size) cs := by
  rw [scan, if_pos hspace]

/-- A word is taken up to the first character with which it cannot go on. -/
lemma scan_word {word rest : List Char} (hword : IsWord word)
    (hlongest : ∀ c ∈ rest.head?, continuesWord c = false) (offset : ℕ) :
    scan offset (word ++ rest) = do
      let tokens ← scan (offset + width word) rest
      return .word (String.ofList word) :: tokens := by
  obtain ⟨c, cs, rfl, hc, hcs⟩ := hword
  have hspace : Text.isWhiteSpace c = false := isWhiteSpace_eq_false_of_startsWord hc
  rw [List.cons_append, scan, if_neg (by simp [hspace]), if_pos hc,
    takeWhile_append_of_boundary hcs hlongest, dropWhile_append_of_boundary hcs hlongest]

lemma scan_mark {mark : Token} (hmark : mark.isMark = true) (offset : ℕ) (rest : List Char) :
    scan offset (mark.text.toList ++ rest) = do
      let tokens ← scan (offset + width mark.text.toList) rest
      return mark :: tokens := by
  obtain ⟨c, cs, htext, hspace, hstart, -⟩ := head_text_of_isMark hmark
  rw [htext, List.cons_append, scan, if_neg (by simp [hspace]), if_neg (by simp [hstart])]
  cases mark with
  | word text => exact absurd hmark Bool.false_ne_true
  | brackets =>
    obtain ⟨rfl, rfl⟩ := List.cons.inj htext
    rfl
  | _ =>
    obtain ⟨rfl, rfl⟩ := List.cons.inj htext
    rfl

/-- The characters up to the first one with which a word cannot go on are a word. -/
lemma isWord_takeWhile {c : Char} (hc : startsWord c = true) (cs : List Char) :
    IsWord (c :: cs.takeWhile continuesWord) :=
  ⟨c, _, rfl, hc, fun _ hd => List.mem_takeWhile_imp hd⟩

lemma continuesWord_head?_dropWhile (cs : List Char) :
    ∀ d ∈ (cs.dropWhile continuesWord).head?, continuesWord d = false := by
  intro d hd
  have hhead := List.head?_dropWhile_not continuesWord cs
  rw [Option.mem_def.mp hd] at hhead
  exact hhead

/-- What begins with a character that starts a word splits into the longest word and what the rest
splits into. -/
lemma splits_of_startsWord {c : Char} {cs : List Char} {tokens : List Token}
    (hc : startsWord c = true) (h : Splits (cs.dropWhile continuesWord) tokens) :
    Splits (c :: cs) (.word (String.ofList (c :: cs.takeWhile continuesWord)) :: tokens) := by
  have hsplits := Splits.word (isWord_takeWhile hc cs) (continuesWord_head?_dropWhile cs) h
  rwa [List.cons_append, List.takeWhile_append_dropWhile] at hsplits

/-- The scanner answers with the tokens of a sequence, wherever that begins. -/
theorem scan_eq_ok_iff {offset : ℕ} {cs : List Char} {tokens : List Token} :
    scan offset cs = .ok tokens ↔ Splits cs tokens := by
  constructor
  · intro h
    fun_induction scan offset cs generalizing tokens with
    | case1 offset =>
      obtain rfl := Except.ok.inj h
      exact .nil
    | case2 offset c cs hspace ih => exact .space hspace (ih h)
    | case3 offset c cs hspace hstart more =>
      rename_i ih
      obtain ⟨rest, hrest, h⟩ := bind_eq_ok_iff.mp h
      obtain rfl := pure_eq_ok_iff.mp h
      exact splits_of_startsWord hstart (ih hrest)
    | case4 offset c cs hspace hstart hbrackets ih =>
      obtain ⟨rest, hrest, h⟩ := bind_eq_ok_iff.mp h
      obtain rfl := pure_eq_ok_iff.mp h
      obtain ⟨rfl, hhead⟩ := hbrackets
      obtain ⟨cs, rfl⟩ := List.head?_eq_some_iff.mp hhead
      exact @Splits.mark .brackets cs rest rfl (ih hrest)
    | case5 offset c cs hspace hstart hbrackets mark hmark ih =>
      obtain ⟨rest, hrest, h⟩ := bind_eq_ok_iff.mp h
      obtain rfl := pure_eq_ok_iff.mp h
      obtain ⟨hmark, htext⟩ := mark?_eq_some_iff.mp hmark
      have hsplits := Splits.mark hmark (ih hrest)
      rwa [htext] at hsplits
    | case6 offset c cs hspace hstart hbrackets hmark => exact nomatch h
  · intro h
    induction h generalizing offset with
    | nil => rw [scan]
    | space hspace h ih => rw [scan_space hspace, ih]
    | word hword hlongest h ih =>
      rw [scan_word hword hlongest, ih]
      rfl
    | mark hmark h ih =>
      rw [scan_mark hmark, ih]
      rfl

/-- The tokens of a text are those that it splits into. -/
lemma ofText_eq_ok_iff {text : String} {tokens : List Token} :
    ofText text = .ok tokens ↔ Splits text.toList tokens :=
  scan_eq_ok_iff

/-- A text splits in one way only. -/
lemma Splits.unique {cs : List Char} {tokens tokens' : List Token} (h : Splits cs tokens)
    (h' : Splits cs tokens') : tokens = tokens' :=
  Except.ok.inj ((scan_eq_ok_iff.mpr h : scan 0 cs = _).symm.trans (scan_eq_ok_iff.mpr h'))

/-- Two sequences that split do so together, unless a word of the first could go on in the
second. -/
lemma Splits.append {cs cs' : List Char} {tokens tokens' : List Token} (h : Splits cs tokens)
    (h' : Splits cs' tokens') (hboundary : ∀ c ∈ cs'.head?, continuesWord c = false) :
    Splits (cs ++ cs') (tokens ++ tokens') := by
  induction h with
  | nil => exact h'
  | space hspace h ih => exact .space hspace ih
  | @word word rest tokens hword hlongest h ih =>
    rw [List.append_assoc]
    refine .word hword (fun c hc => ?_) ih
    rw [List.head?_append] at hc
    cases rest with
    | nil => exact hboundary c hc
    | cons d rest => exact hlongest c hc
  | mark hmark h ih =>
    rw [List.append_assoc]
    exact .mark hmark ih

/-- What splits may be followed by a mark. -/
lemma Splits.append_mark {cs rest : List Char} {tokens tokens' : List Token} (h : Splits cs tokens)
    (mark : Token) (hmark : mark.isMark = true) (hrest : Splits rest tokens') :
    Splits (cs ++ (mark.text.toList ++ rest)) (tokens ++ mark :: tokens') := by
  refine h.append (.mark hmark hrest) fun c hc => ?_
  obtain ⟨d, ds, htext, -, -, hd⟩ := head_text_of_isMark hmark
  rw [htext, List.cons_append, List.head?_cons, Option.mem_some_iff] at hc
  exact hc ▸ hd

/-- A word splits into itself. -/
lemma splits_word {word : String} (hword : IsWord word.toList) :
    Splits word.toList [.word word] := by
  have hsplits := Splits.word hword (by simp) .nil
  rwa [List.append_nil, String.ofList_toList] at hsplits

/-- The words among the tokens of a sequence are words. -/
lemma Splits.isWord {cs : List Char} {tokens : List Token} (h : Splits cs tokens) {text : String}
    (htext : .word text ∈ tokens) : IsWord text.toList := by
  induction h with
  | nil => exact nomatch htext
  | space hspace h ih => exact ih htext
  | @word word rest tokens hword hlongest h ih =>
    rcases List.mem_cons.mp htext with heq | hrest
    · rw [Token.word.inj heq, String.toList_ofList]
      exact hword
    · exact ih hrest
  | mark hmark h ih =>
    rcases List.mem_cons.mp htext with rfl | hrest
    · exact nomatch hmark
    · exact ih hrest

end Token

end WrittenType

end ParcelCompanion
