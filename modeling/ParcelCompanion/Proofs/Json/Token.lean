import Mathlib.Data.List.Basic
import Mathlib.Data.List.TakeWhile
import ParcelCompanion.Json.Reader
import ParcelCompanion.Json.Writer

/-!
# Strings and numbers are read as they were written

A string is read back character by character: whatever a character is written as, its reader takes
exactly that and gives the character.  A number has no closing mark, so its reader must be stopped by
what comes next.  Each part of a number is read the same whatever comes behind the number, as long as
that does not continue it, and so is the whole.
-/

namespace ParcelCompanion.Json

variable {cs rest : List Char}

/-! ### Strings -/

/-- Puts a part of a string in front of what was read behind it. -/
def consPiece (piece : Piece) (read : Option (List Piece × List Char)) :
    Option (List Piece × List Char) := do
  let (pieces, rest) ← read
  return (piece :: pieces, rest)

/-- A letter behind a backslash is read as the character that it stands for. -/
lemma readPieces_letter {e c : Char} (h : escaped? e = some c) (rest : List Char) :
    readPieces ('\\' :: e :: rest) = consPiece (.char c) (readPieces rest) := by
  have hletter : e ≠ 'u' := by
    rintro rfl
    exact nomatch h
  rw [readPieces, h]
  · rfl
  · exact fun _ _ _ _ _ heq _ => hletter heq

/-- A control character is spelled by a code of four digits, of which the first two are zero. -/
lemma hexNumber?_code {c : Char} (hc : c.toNat < 0x20) :
    Text.hexNumber? ['0', '0', hexChar (c.toNat / 16), hexChar (c.toNat % 16)] = some c.toNat := by
  generalize c.toNat = n at hc
  revert n
  decide +kernel

lemma readPieces_code {c : Char} (hc : c.toNat < 0x20) (rest : List Char) :
    readPieces ('\\' :: 'u' :: '0' :: '0' :: hexChar (c.toNat / 16) :: hexChar (c.toNat % 16) :: rest)
      = consPiece (.char c) (readPieces rest) := by
  have hunit : Piece.ofUnit c.toNat = .char c := by
    rw [Piece.ofUnit, if_neg (by omega), Char.ofNat_toNat]
  rw [readPieces, hexNumber?_code hc, Option.bind_eq_bind, Option.bind_some, hunit]
  rfl

/-- A character that is no quote, no backslash and no control character is read as it is. -/
lemma readPieces_plain {c : Char} (hquote : c ≠ '"') (hbackslash : c ≠ '\\')
    (hc : ¬ c.toNat < 0x20) (rest : List Char) :
    readPieces (c :: rest) = consPiece (.char c) (readPieces rest) := by
  rw [readPieces, if_neg hc]
  · rfl
  · exact hquote
  · exact fun _ _ _ _ _ heq _ => hbackslash heq
  · exact fun _ _ heq _ => hbackslash heq

/-- The reader takes a character of a string as it is written. -/
lemma readPieces_escape (c : Char) (rest : List Char) :
    readPieces (escape c ++ rest) = consPiece (.char c) (readPieces rest) := by
  unfold escape
  split
  case h_8 hquote hbackslash _ _ _ _ _ =>
    split
    · next hc => exact readPieces_code hc rest
    · next hc => exact readPieces_plain hquote hbackslash hc rest
  all_goals exact readPieces_letter rfl rest

/-- The characters of a text are all read, up to the quote that ends it. -/
lemma readPieces_flatMap (cs rest : List Char) :
    readPieces (cs.flatMap escape ++ '"' :: rest) = some (cs.map Piece.char, rest) := by
  induction cs with
  | nil => simp only [List.flatMap_nil, List.nil_append, readPieces, List.map_nil]
  | cons c cs ih =>
    rw [List.flatMap_cons, List.append_assoc, readPieces_escape, ih]
    rfl

lemma assemble_chars (cs : List Char) : assemble (cs.map Piece.char) = some cs := by
  induction cs with
  | nil => rfl
  | cons c cs ih => rw [List.map_cons, assemble, ih, Option.map_some]

/-- A string is written between quotes, and read back from behind the first one. -/
lemma exists_writeText (text : Text) : ∃ cs, (writeText text).toList = '"' :: cs ∧
    ∀ rest, readString (cs ++ rest) = some (text, rest) := by
  cases text with
  | none => exact ⟨"\\ud800\"".toList, by decide +kernel, fun rest => by rfl⟩
  | some text =>
    refine ⟨text.toList.flatMap escape ++ ['"'], by rw [writeText, quote, String.toList_ofList]; rfl,
      fun rest => ?_⟩
    rw [readString, List.append_assoc, List.singleton_append, readPieces_flatMap]
    change some ((assemble (text.toList.map Piece.char)).map String.ofList, rest) = _
    rw [assemble_chars, Option.map_some, String.ofList_toList]

/-! ### Numbers -/

/-- What comes next is no more of the digits in front of it. -/
def EndsDigits (rest : List Char) : Prop :=
  ∀ c ∈ rest.head?, c.isDigit = false

/-- What comes next is no more of the number in front of it. -/
def EndsNumber (rest : List Char) : Prop :=
  ∀ c ∈ rest.head?, c.isDigit = false ∧ c ≠ '.' ∧ c ≠ 'e' ∧ c ≠ 'E'

lemma EndsNumber.endsDigits (h : EndsNumber rest) : EndsDigits rest :=
  fun c hc => (h c hc).1

/-- The text spells a number. -/
def IsNumeral (spelling : String) : Prop :=
  readNumber spelling.toList = some (spelling, [])

instance (spelling : String) : Decidable (IsNumeral spelling) :=
  inferInstanceAs (Decidable (_ = _))

/-- Where digits end in front of something, they end in front of it with more behind it. -/
lemma endsDigits_append (h : EndsDigits cs) (hrest : EndsDigits rest) : EndsDigits (cs ++ rest) := by
  cases cs with
  | nil => exact hrest
  | cons c cs => exact h

/-- The reader of digits takes all digits there are, of which there must be one. -/
lemma readDigits_eq_some_iff {digits : List Char} :
    readDigits cs = some (digits, rest) ↔ digits ≠ [] ∧ cs = digits ++ rest ∧
      (∀ c ∈ digits, c.isDigit = true) ∧ EndsDigits rest := by
  rw [readDigits]
  constructor
  · intro h
    split at h
    · cases h
    · next hne =>
      obtain ⟨rfl, rfl⟩ := Prod.mk.inj (Option.some.inj h)
      refine ⟨fun heq => hne (List.isEmpty_iff.mpr heq), List.takeWhile_append_dropWhile.symm,
        fun c => List.mem_takeWhile_imp, fun c hc => ?_⟩
      have hhead := List.head?_dropWhile_not Char.isDigit cs
      rw [Option.mem_def.mp hc] at hhead
      simpa using hhead
  · rintro ⟨hne, rfl, hdigits, hrest⟩
    have htake : rest.takeWhile Char.isDigit = [] := by
      cases rest with
      | nil => rfl
      | cons c rest => exact List.takeWhile_cons_of_neg (by rw [hrest c rfl]; decide)
    have hdrop : rest.dropWhile Char.isDigit = rest := by
      cases rest with
      | nil => rfl
      | cons c rest => exact List.dropWhile_cons_of_neg (by rw [hrest c rfl]; decide)
    rw [List.takeWhile_append_of_pos hdigits, List.dropWhile_append_of_pos hdigits, htake, hdrop,
      List.append_nil, if_neg fun hempty => hne (List.isEmpty_iff.mp hempty)]

/-- Digits are read the same whatever comes behind them, as long as that is no digit. -/
lemma readDigits_append {digits cs' : List Char} (h : readDigits cs = some (digits, cs'))
    (hrest : EndsDigits rest) : readDigits (cs ++ rest) = some (digits, cs' ++ rest) := by
  obtain ⟨hne, rfl, hdigits, hend⟩ := readDigits_eq_some_iff.mp h
  exact readDigits_eq_some_iff.mpr
    ⟨hne, List.append_assoc _ _ _, hdigits, endsDigits_append hend hrest⟩

lemma readFraction_of_ne {c : Char} (h : c ≠ '.') (cs : List Char) :
    readFraction (c :: cs) = some ([], c :: cs) := by
  rw [readFraction]
  exact fun _ heq => h (List.cons.inj heq).1

lemma readFraction_append {fraction cs' : List Char} (h : readFraction cs = some (fraction, cs'))
    (hrest : EndsNumber rest) : readFraction (cs ++ rest) = some (fraction, cs' ++ rest) := by
  cases cs with
  | nil =>
    obtain ⟨rfl, rfl⟩ := Prod.mk.inj (Option.some.inj h)
    cases rest with
    | nil => rfl
    | cons c rest => exact readFraction_of_ne (hrest c rfl).2.1 rest
  | cons c cs =>
    by_cases hpoint : c = '.'
    · subst hpoint
      obtain ⟨⟨digits, cs''⟩, hdigits, hread⟩ := Option.bind_eq_some_iff.mp h
      obtain ⟨rfl, rfl⟩ := Prod.mk.inj (Option.some.inj hread)
      rw [List.cons_append, readFraction, readDigits_append hdigits hrest.endsDigits]
      rfl
    · rw [readFraction_of_ne hpoint] at h
      obtain ⟨rfl, rfl⟩ := Prod.mk.inj (Option.some.inj h)
      exact readFraction_of_ne hpoint _

/-- A sign is read the same whatever comes behind the digits that follow it. -/
lemma readSign_append {signs sign cs' digits cs'' : List Char} (h : readSign signs cs = (sign, cs'))
    (hdigits : readDigits cs' = some (digits, cs'')) (rest : List Char) :
    readSign signs (cs ++ rest) = (sign, cs' ++ rest) := by
  cases cs with
  | nil =>
    obtain ⟨-, rfl⟩ := Prod.mk.inj h
    exact nomatch hdigits
  | cons c cs =>
    rw [readSign] at h
    rw [List.cons_append, readSign]
    split at h
    · next hc =>
      obtain ⟨rfl, rfl⟩ := Prod.mk.inj h
      rw [if_pos hc]
    · next hc =>
      obtain ⟨rfl, rfl⟩ := Prod.mk.inj h
      rw [if_neg hc]
      rfl

lemma readExponent_append {exponent cs' : List Char} (h : readExponent cs = some (exponent, cs'))
    (hrest : EndsNumber rest) : readExponent (cs ++ rest) = some (exponent, cs' ++ rest) := by
  cases cs with
  | nil =>
    obtain ⟨rfl, rfl⟩ := Prod.mk.inj (Option.some.inj h)
    cases rest with
    | nil => rfl
    | cons c rest =>
      have hc := (hrest c rfl).2.2
      rw [List.nil_append, readExponent, if_neg (not_or.mpr hc)]
  | cons e cs =>
    rw [readExponent] at h
    rw [List.cons_append, readExponent]
    split at h
    · next he =>
      rcases hsign : readSign ['+', '-'] cs with ⟨sign, cs₁⟩
      rw [hsign] at h
      obtain ⟨⟨digits, cs₂⟩, hdigits, hread⟩ := Option.bind_eq_some_iff.mp h
      obtain ⟨rfl, rfl⟩ := Prod.mk.inj (Option.some.inj hread)
      rw [if_pos he, readSign_append hsign hdigits]
      dsimp only
      rw [readDigits_append hdigits hrest.endsDigits]
      rfl
    · next he =>
      obtain ⟨rfl, rfl⟩ := Prod.mk.inj (Option.some.inj h)
      rw [if_neg he]
      rfl

/-- A number is read the same whatever comes behind it, as long as that does not continue it. -/
lemma readNumber_append {spelling : String} {cs' : List Char}
    (h : readNumber cs = some (spelling, cs')) (hrest : EndsNumber rest) :
    readNumber (cs ++ rest) = some (spelling, cs' ++ rest) := by
  rw [readNumber] at h ⊢
  rcases hsign : readSign ['-'] cs with ⟨sign, cs₁⟩
  rw [hsign] at h
  obtain ⟨⟨whole, cs₂⟩, hwhole, h⟩ := Option.bind_eq_some_iff.mp h
  rw [readSign_append hsign hwhole]
  dsimp only at h ⊢
  rw [readDigits_append hwhole hrest.endsDigits]
  dsimp only [Option.bind_eq_bind, Option.bind_some] at h ⊢
  split at h
  · exact nomatch h
  · next hzero =>
    obtain ⟨⟨fraction, cs₃⟩, hfraction, h⟩ := Option.bind_eq_some_iff.mp h
    obtain ⟨⟨exponent, cs₄⟩, hexponent, h⟩ := Option.bind_eq_some_iff.mp h
    obtain ⟨rfl, rfl⟩ := Prod.mk.inj (Option.some.inj h)
    rw [if_neg hzero, readFraction_append hfraction hrest]
    dsimp only [Option.bind_some]
    rw [readExponent_append hexponent hrest]
    rfl

/-- A number starts with a sign or a digit. -/
lemma IsNumeral.exists_cons {spelling : String} (h : IsNumeral spelling) :
    ∃ c cs, spelling.toList = c :: cs ∧ (c = '-' ∨ c.isDigit = true) := by
  rw [IsNumeral, readNumber] at h
  cases hcs : spelling.toList with
  | nil =>
    rw [hcs] at h
    exact nomatch h
  | cons c cs =>
    refine ⟨c, cs, rfl, or_iff_not_imp_left.mpr fun hc => ?_⟩
    rw [hcs, readSign, if_neg (by simpa using hc)] at h
    obtain ⟨⟨whole, rest⟩, hwhole, -⟩ := Option.bind_eq_some_iff.mp h
    obtain ⟨hne, heq, hdigits, -⟩ := readDigits_eq_some_iff.mp hwhole
    obtain ⟨d, digits, rfl⟩ := List.exists_cons_of_ne_nil hne
    exact (List.cons.inj heq).1 ▸ hdigits d List.mem_cons_self

/-! ### Natural numbers -/

/-- The digits of a number begin with a zero only if the number is zero. -/
lemma head?_toDigits_ne {n : ℕ} (hn : n ≠ 0) : (Nat.toDigits 10 n).head? ≠ some '0' := by
  induction n using Nat.strongRecOn with
  | ind n ih =>
    rw [Nat.toDigits_eq_if (by decide)]
    by_cases hlt : n < 10
    · have hdigit : ∀ k < 10, k ≠ 0 → [Nat.digitChar k].head? ≠ some '0' := by decide
      rw [if_pos hlt]
      exact hdigit n hlt hn
    · have hfront : n / 10 ≠ 0 := by omega
      have hhead : (Nat.toDigits 10 (n / 10)).head? ≠ some '0' := ih (n / 10) (by omega) hfront
      rw [if_neg hlt, List.head?_append_of_ne_nil _ Nat.toDigits_ne_nil]
      exact hhead

/-- The digits of a natural number spell a number. -/
lemma isNumeral_toString (n : ℕ) : IsNumeral (toString n) := by
  have htext : (toString n).toList = Nat.toDigits 10 n := Nat.toList_repr
  have hdigits : ∀ c ∈ Nat.toDigits 10 n, c.isDigit = true :=
    fun c hc => Nat.isDigit_of_mem_toDigits (by decide) (by decide) hc
  have hread : readDigits (Nat.toDigits 10 n) = some (Nat.toDigits 10 n, []) :=
    readDigits_eq_some_iff.mpr ⟨Nat.toDigits_ne_nil, (List.append_nil _).symm, hdigits, nofun⟩
  have hsign : readSign ['-'] (Nat.toDigits 10 n) = ([], Nat.toDigits 10 n) := by
    obtain ⟨c, cs, hcs⟩ := List.exists_cons_of_ne_nil (Nat.toDigits_ne_nil (b := 10) (n := n))
    have hc : c ≠ '-' := by
      rintro rfl
      exact absurd (hdigits '-' (hcs ▸ List.mem_cons_self)) (by decide)
    rw [hcs, readSign, if_neg (by simpa using hc)]
  have hzero : ¬((Nat.toDigits 10 n).head? = some '0' ∧ (Nat.toDigits 10 n).length ≠ 1) := by
    rintro ⟨hhead, hlength⟩
    have hn : n = 0 := by
      by_contra hn
      exact head?_toDigits_ne hn hhead
    subst hn
    exact hlength rfl
  rw [IsNumeral, readNumber, htext, hsign]
  dsimp only
  rw [hread]
  dsimp only [Option.bind_eq_bind, Option.bind_some]
  rw [if_neg hzero]
  change some (String.ofList ([] ++ Nat.toDigits 10 n ++ [] ++ []), _) = _
  rw [List.append_nil, List.append_nil, List.nil_append, ← htext, String.ofList_toList]

end ParcelCompanion.Json
