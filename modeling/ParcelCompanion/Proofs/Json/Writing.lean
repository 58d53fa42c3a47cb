import Mathlib.Data.List.Forall2
import ParcelCompanion.Proofs.Json.Spelling

/-!
# Values are read as they were written

What is written spells the value, on one line as well as over several.  Both ways put the entries of
a list one behind the other with commas between them, and differ only in the blanks in front of an
entry and of the mark that closes the list.
-/

namespace ParcelCompanion.Json

variable {gap cs : List Char} {part : Part}

namespace Value

/-- The numbers in a value are all spelled as numbers. -/
inductive IsProper : Value → Prop
  | null : IsProper .null
  | bool (value : Bool) : IsProper (.bool value)
  | number {spelling : String} (h : IsNumeral spelling) : IsProper (.number spelling)
  | string (text : Text) : IsProper (.string text)
  | array {items : List Value} (h : ∀ item ∈ items, IsProper item) : IsProper (.array items)
  | object {members : List (Text × Value)} (h : ∀ member ∈ members, IsProper member.2) :
      IsProper (.object members)

lemma compactItems_eq_map (items : List Value) : compactItems items = items.map compact := by
  induction items with
  | nil => rw [compactItems, List.map_nil]
  | cons item items ih => rw [compactItems, List.map_cons, ih]

lemma compactMembers_eq_map (members : List (Text × Value)) :
    compactMembers members =
      members.map fun member => writeText member.1 ++ ":" ++ member.2.compact := by
  induction members with
  | nil => rw [compactMembers, List.map_nil]
  | cons member members ih => rw [compactMembers, List.map_cons, ih]

lemma indentedItems_eq_map (level : Nat) (items : List Value) :
    indentedItems level items = items.map (indented level) := by
  induction items with
  | nil => rw [indentedItems, List.map_nil]
  | cons item items ih => rw [indentedItems, List.map_cons, ih]

lemma indentedMembers_eq_map (level : Nat) (members : List (Text × Value)) :
    indentedMembers level members =
      members.map fun member => writeText member.1 ++ ": " ++ member.2.indented level := by
  induction members with
  | nil => rw [indentedMembers, List.map_nil]
  | cons member members ih => rw [indentedMembers, List.map_cons, ih]

end Value

/-! ### Lists -/

lemma blanks_nil : Blanks [] := nofun

lemma blanks_space : Blanks " ".toList :=
  List.forall_mem_singleton.mpr rfl

lemma blanks_indentation (level : Nat) : Blanks ("\n" ++ Value.indentation level).toList := by
  have hspaces : (Value.indentation level).toList = List.replicate (2 * level) ' ' :=
    String.toList_ofList
  rw [String.toList_append, hspaces]
  intro c hc
  rcases List.mem_append.mp hc with hc | hc
  · rw [List.mem_singleton.mp hc]
    decide
  · rw [List.eq_of_mem_replicate hc]
    decide

lemma Spells.behind_blanks (h : Spells cs part) (hgap : Blanks gap) : Spells (gap ++ cs) part := by
  induction gap with
  | nil => exact h
  | cons c gap ih =>
    obtain ⟨hc, hgap⟩ := List.forall_mem_cons.mp hgap
    exact (ih hgap).blank hc

/-- The text spells an item of an array. -/
def SpellsItem (entry : String) (item : Value) : Prop :=
  Spells entry.toList (.value item)

/-- The text spells a member of an object: its key, a colon and its value. -/
def SpellsMember (entry : String) (member : Text × Value) : Prop :=
  ∃ gap cs, entry.toList = gap ++ ((writeText member.1).toList ++ ':' :: cs) ∧ Blanks gap ∧
    Spells cs (.value member.2)

lemma SpellsItem.behind_blanks {blanks entry : String} {item : Value} (h : SpellsItem entry item)
    (hblanks : Blanks blanks.toList) : SpellsItem (blanks ++ entry) item := by
  rw [SpellsItem, String.toList_append]
  exact Spells.behind_blanks h hblanks

lemma SpellsMember.behind_blanks {blanks entry : String} {member : Text × Value}
    (h : SpellsMember entry member) (hblanks : Blanks blanks.toList) :
    SpellsMember (blanks ++ entry) member := by
  obtain ⟨gap, cs, hentry, hgap, hvalue⟩ := h
  refine ⟨blanks.toList ++ gap, cs, ?_, List.forall_mem_append.mpr ⟨hblanks, hgap⟩, hvalue⟩
  rw [String.toList_append, hentry, List.append_assoc]

lemma toList_intercalate_cons_cons (first second : String) (entries : List String) :
    (String.intercalate "," (first :: second :: entries)).toList =
      first.toList ++ ([] ++ ',' :: (String.intercalate "," (second :: entries)).toList) := by
  rw [String.intercalate_cons_cons, String.toList_append, String.toList_append, List.append_assoc]
  rfl

/-- Items with commas between them spell the items. -/
lemma spells_items {entries : List String} {items : List Value}
    (h : List.Forall₂ SpellsItem entries items) (hne : items ≠ []) (hgap : Blanks gap) :
    Spells ((String.intercalate "," entries).toList ++ (gap ++ [']'])) (.items items) := by
  induction h with
  | nil => exact absurd rfl hne
  | cons hentry hentries ih =>
    cases hentries with
    | nil =>
      rw [String.intercalate_singleton]
      exact .lastItem hentry hgap
    | cons =>
      rw [toList_intercalate_cons_cons, List.append_assoc, List.append_assoc, List.cons_append]
      exact .item hentry blanks_nil (ih (List.cons_ne_nil _ _))

/-- Members with commas between them spell the members. -/
lemma spells_members {entries : List String} {members : List (Text × Value)}
    (h : List.Forall₂ SpellsMember entries members) (hne : members ≠ []) (hgap : Blanks gap) :
    Spells ((String.intercalate "," entries).toList ++ (gap ++ ['\x7d'])) (.members members) := by
  induction h with
  | nil => exact absurd rfl hne
  | cons hentry hentries ih =>
    obtain ⟨gap', cs, hcs, hgap', hvalue⟩ := hentry
    cases hentries with
    | nil =>
      rw [String.intercalate_singleton, hcs]
      simp only [List.append_assoc, List.cons_append]
      exact (Spells.lastMember _ blanks_nil hvalue hgap).behind_blanks hgap'
    | cons =>
      rw [toList_intercalate_cons_cons, hcs]
      simp only [List.append_assoc, List.cons_append]
      exact (Spells.member _ blanks_nil hvalue blanks_nil
        (ih (List.cons_ne_nil _ _))).behind_blanks hgap'

lemma spells_array {entries : List String} {items : List Value} (gap : String)
    (h : List.Forall₂ SpellsItem entries items) (hgap : Blanks gap.toList) :
    SpellsItem ("[" ++ String.intercalate "," entries ++ gap ++ "]") (.array items) := by
  simp only [SpellsItem, String.toList_append, List.append_assoc]
  by_cases hitems : items = []
  · subst hitems
    rw [List.forall₂_nil_right_iff.mp h]
    exact .noItems hgap
  · exact .array (spells_items h hitems hgap)

lemma spells_object {entries : List String} {members : List (Text × Value)} (gap : String)
    (h : List.Forall₂ SpellsMember entries members) (hgap : Blanks gap.toList) :
    SpellsItem ("\x7b" ++ String.intercalate "," entries ++ gap ++ "\x7d") (.object members) := by
  simp only [SpellsItem, String.toList_append, List.append_assoc]
  by_cases hmembers : members = []
  · subst hmembers
    rw [List.forall₂_nil_right_iff.mp h]
    exact .noMembers hgap
  · exact .object (spells_members h hmembers hgap)

/-- A key, a colon and a value spell a member. -/
lemma spellsMember_of_value {entry : String} {member : Text × Value} (h : SpellsItem entry member.2) :
    SpellsMember (writeText member.1 ++ ":" ++ entry) member := by
  refine ⟨[], entry.toList, ?_, blanks_nil, h⟩
  rw [String.toList_append, String.toList_append, List.append_assoc]
  rfl

lemma forall₂_map_of_mem {α : Type} {spells : String → α → Prop} {write : α → String}
    {parts : List α} (h : ∀ part ∈ parts, spells (write part) part) :
    List.Forall₂ spells (parts.map write) parts :=
  List.forall₂_map_left_iff.mpr (List.forall₂_same.mpr h)

/-! ### Values -/

namespace Value

variable {value : Value}

/-- A value on one line spells the value. -/
lemma IsProper.spells_compact (h : value.IsProper) : SpellsItem value.compact value := by
  induction h with
  | null => exact .null
  | bool value => exact .bool value
  | number hspelling => exact .number hspelling
  | string text => exact .string text
  | @array items _ ih =>
    have hspells := spells_array "" (forall₂_map_of_mem ih) blanks_nil
    rwa [String.append_empty, ← compactItems_eq_map] at hspells
  | @object members _ ih =>
    have hspells := spells_object "" (forall₂_map_of_mem fun member hmember =>
      spellsMember_of_value (ih member hmember)) blanks_nil
    rwa [String.append_empty, ← compactMembers_eq_map] at hspells

lemma block_nil (level : Nat) (opening closing : String) :
    block level opening closing [] = opening ++ closing :=
  rfl

/-- A list over several lines has its entries and its closing mark on lines of their own. -/
lemma block_of_ne_nil (level : Nat) (opening closing : String) {entries : List String}
    (hne : entries ≠ []) :
    block level opening closing entries = opening ++ String.intercalate ","
      (entries.map fun entry => "\n" ++ indentation (level + 1) ++ entry) ++
      ("\n" ++ indentation level) ++ closing := by
  rw [block, if_neg fun hempty => hne (List.isEmpty_iff.mp hempty)]
  simp only [String.append_assoc]

/-- A value over several lines spells the value. -/
lemma IsProper.spells_indented (h : value.IsProper) :
    ∀ level, SpellsItem (value.indented level) value := by
  induction h with
  | null =>
    intro level
    simp only [indented]
    exact IsProper.null.spells_compact
  | bool value => exact fun _ => .bool value
  | number hspelling => exact fun _ => .number hspelling
  | string text => exact fun _ => .string text
  | @array items _ ih =>
    intro level
    rw [indented, indentedItems_eq_map]
    by_cases hitems : items = []
    · subst hitems
      rw [List.map_nil, block_nil]
      exact .noItems blanks_nil
    · rw [block_of_ne_nil _ _ _ (List.map_eq_nil_iff.not.mpr hitems), List.map_map]
      refine spells_array _ (forall₂_map_of_mem fun item hitem => ?_) (blanks_indentation level)
      exact (ih item hitem (level + 1)).behind_blanks (blanks_indentation (level + 1))
  | @object members _ ih =>
    intro level
    rw [indented, indentedMembers_eq_map]
    by_cases hmembers : members = []
    · subst hmembers
      rw [List.map_nil, block_nil]
      exact .noMembers blanks_nil
    · rw [block_of_ne_nil _ _ _ (List.map_eq_nil_iff.not.mpr hmembers), List.map_map]
      refine spells_object _ (forall₂_map_of_mem fun member hmember => ?_)
        (blanks_indentation level)
      have hvalue := (ih member hmember (level + 1)).behind_blanks blanks_space
      have hcolon : writeText member.1 ++ ": " ++ member.2.indented (level + 1) =
          writeText member.1 ++ ":" ++ (" " ++ member.2.indented (level + 1)) := by
        rw [show ": " = ":" ++ " " by decide +kernel]
        simp only [String.append_assoc]
      dsimp only [Function.comp_apply]
      rw [hcolon]
      exact (spellsMember_of_value hvalue).behind_blanks (blanks_indentation (level + 1))

end Value

/-- A value is read back both from one line and from several. -/
theorem Value.IsProper.parse_eq {value : Value} (h : value.IsProper) :
    parse value.compact = some value ∧ parse value.pretty = some value :=
  ⟨parse_of_spells h.spells_compact, parse_of_spells (h.spells_indented 0)⟩

end ParcelCompanion.Json
