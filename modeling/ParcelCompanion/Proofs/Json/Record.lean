import Mathlib.Data.List.Nodup
import Std.Data.String.ToNat
import ParcelCompanion.Proofs.Json.Writing
import ParcelCompanion.Record

/-!
# Records are read as they were written

A record that is written under the proper names of its fields, none of them twice, is read with
exactly the values that were written.  An array is read as a list if each of its items is read as the
member that it was written for.
-/

namespace ParcelCompanion

open Json (Value)

/-! ### Lists -/

namespace Json.Value

variable {α : Type} {write : α → Value} {read : Value → Option α}

/-- What is written item by item is read item by item. -/
lemma list?_array_map (h : ∀ x, read (write x) = some x) (xs : List α) :
    list? read (.array (xs.map write)) = some xs := by
  have hitems : (xs.map write).mapM read = some xs := by
    induction xs with
    | nil => rfl
    | cons x xs ih =>
      rw [List.map_cons, List.mapM_cons, h, ih]
      rfl
  exact hitems

@[simp] lemma text?_ofText (text : String) : text? (ofText text) = some text :=
  rfl

@[simp] lemma nullable?_ofText (text : String) : nullable? text? (ofText text) = some (some text) :=
  rfl

@[simp] lemma list?_ofTexts (texts : List String) : list? text? (ofTexts texts) = some texts :=
  list?_array_map text?_ofText texts

/-- Whatever has a word for a text is read back from a list of words. -/
lemma list?_ofTexts_map {name : α → String} (h : ∀ x, read (ofText (name x)) = some x)
    (xs : List α) : list? read (ofTexts (xs.map name)) = some xs := by
  rw [ofTexts, List.map_map]
  exact list?_array_map h xs

lemma nat?_ofNat (n : ℕ) : nat? (ofNat n) = some n := by
  have hdigits : (toString n).toList.all Char.isDigit = true := by
    refine List.all_eq_true.mpr fun c hc => ?_
    have htext : (toString n).toList = Nat.toDigits 10 n := Nat.toList_repr
    rw [htext] at hc
    exact Nat.isDigit_of_mem_toDigits (by decide) (by decide) hc
  rw [ofNat, nat?, if_pos hdigits]
  exact Nat.toNat?_repr n

lemma word?_ofNat {n : ℕ} (h : n < UInt32.size) : word? (ofNat n) = some n := by
  rw [word?, nat?_ofNat, Option.filter_some, if_pos (decide_eq_true h)]

/-- What may be absent is read as it was written, if that is not how absence is written. -/
lemma nullable?_ofOption {x? : Option α} (h : ∀ x ∈ x?, write x ≠ .null ∧ read (write x) = some x) :
    nullable? read (ofOption (x?.map write)) = some x? := by
  cases x? with
  | none => rfl
  | some x =>
    obtain ⟨hne, hread⟩ := h x rfl
    rw [Option.map_some, ofOption, nullable?, hread]
    · rfl
    · exact hne

lemma isProper_ofText (text : String) : (ofText text).IsProper :=
  .string _

lemma isProper_ofNat (n : ℕ) : (ofNat n).IsProper :=
  .number (isNumeral_toString n)

lemma isProper_ofOption_map (h : ∀ x, (write x).IsProper) (x? : Option α) :
    (ofOption (x?.map write)).IsProper := by
  cases x? with
  | none => exact .null
  | some x => exact h x

lemma isProper_array_map (h : ∀ x, (write x).IsProper) (xs : List α) :
    (Value.array (xs.map write)).IsProper := by
  refine .array fun item hitem => ?_
  obtain ⟨x, -, rfl⟩ := List.mem_map.mp hitem
  exact h x

lemma isProper_ofTexts (texts : List String) : (ofTexts texts).IsProper :=
  isProper_array_map isProper_ofText texts

lemma isProper_ofMembers {members : List (String × Value)}
    (h : ∀ member ∈ members, member.2.IsProper) : (ofMembers members).IsProper := by
  refine .object fun member hmember => ?_
  obtain ⟨⟨key, value⟩, hmem, rfl⟩ := List.mem_map.mp hmember
  exact h _ hmem

end Json.Value

/-! ### Records -/

namespace Record

variable {fields : List RecordField} {keys : List String} {members : List (String × Value)}

/-- The keys are proper names of fields, none of them twice. -/
def NameFields (fields : List RecordField) (keys : List String) : Prop :=
  (∀ key ∈ keys, fieldName? fields key = some key) ∧ keys.Nodup

instance : Decidable (NameFields fields keys) :=
  inferInstanceAs (Decidable (_ ∧ _))

/-- Keys may be left out. -/
lemma NameFields.sublist {keys' : List String} (h : NameFields fields keys) (hsub : keys'.Sublist keys) :
    NameFields fields keys' :=
  ⟨fun key hkey => h.1 key (hsub.mem hkey), hsub.nodup h.2⟩

/-- The values of a record are those that it was written with. -/
lemma ofJson?_ofMembers (h : NameFields fields (members.map Prod.fst)) :
    ofJson? fields (.ofMembers members) = some ⟨false, members⟩ := by
  obtain ⟨hnames, hnodup⟩ := h
  change ofMembers fields (members.map fun member => (some member.1, member.2)) = _
  induction members with
  | nil => rfl
  | cons member members ih =>
    rw [List.map_cons] at hnames hnodup
    obtain ⟨hname, hnames⟩ := List.forall_mem_cons.mp hnames
    obtain ⟨hfresh, hnodup⟩ := List.nodup_cons.mp hnodup
    have habsent : members.lookup member.1 = none := by
      refine List.lookup_eq_none_iff.mpr fun other hother => bne_iff_ne.mpr fun heq => hfresh ?_
      rw [heq]
      exact List.mem_map_of_mem hother
    rw [List.map_cons, ofMembers, ih hnames hnodup]
    dsimp only [Option.bind_eq_bind, Option.bind_some]
    rw [hname]
    dsimp only
    rw [given?, habsent]
    rfl

end Record

end ParcelCompanion
