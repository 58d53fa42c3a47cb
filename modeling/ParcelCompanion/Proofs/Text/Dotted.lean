import Mathlib.Data.List.Basic
import ParcelCompanion.Proofs.Lists
import ParcelCompanion.Text.Dotted

/-!
# Segments of dotted names

The segments of a name are what a list function splits at the dots, so they determine the name.
The last of them is its simple name, and the others are those of the name around it.
-/

namespace ParcelCompanion.Dotted

variable {l before after : List Char} {name outer scope rest : String}

/-! ### On characters -/

lemma not_mem_of_splitLast (h : splitLast l = none) : '.' ∉ l := by
  induction l with
  | nil => exact List.not_mem_nil
  | cons c cs ih =>
    cases hrest : splitLast cs with
    | some parts => simp [splitLast, hrest] at h
    | none =>
      have hc : '.' ≠ c := by
        intro hc
        simp [splitLast, hrest, ← hc] at h
      exact List.not_mem_cons_of_ne_of_not_mem hc (ih hrest)

lemma eq_append_of_splitLast (h : splitLast l = some (before, after)) :
    l = before ++ '.' :: after ∧ '.' ∉ after := by
  induction l generalizing before with
  | nil => exact nomatch h
  | cons c cs ih =>
    cases hrest : splitLast cs with
    | some parts =>
      obtain ⟨rfl, rfl⟩ : c :: parts.1 = before ∧ parts.2 = after := by
        simpa [splitLast, hrest] using h
      obtain ⟨hcs, hafter⟩ := ih hrest
      exact ⟨congrArg (c :: ·) hcs, hafter⟩
    | none =>
      obtain ⟨rfl, rfl, rfl⟩ : c = '.' ∧ [] = before ∧ cs = after := by
        simpa [splitLast, hrest] using h
      exact ⟨rfl, not_mem_of_splitLast hrest⟩

lemma splitLast_eq_none (h : '.' ∉ l) : splitLast l = none := by
  cases hsplit : splitLast l with
  | none => rfl
  | some parts =>
    have hl := (eq_append_of_splitLast hsplit).1
    exact absurd (hl ▸ List.mem_append_right _ List.mem_cons_self) h

lemma splitLast_append_cons (h : '.' ∉ after) :
    splitLast (before ++ '.' :: after) = some (before, after) := by
  induction before with
  | nil => rw [List.nil_append, splitLast, splitLast_eq_none h, if_pos rfl]
  | cons c before ih => rw [List.cons_append, splitLast, ih]

/-- A character is a dot or stands between the dots. -/
lemma mem_splitOn {c : Char} (hc : c ∈ l) : c = '.' ∨ ∃ segment ∈ l.splitOn '.', c ∈ segment := by
  by_cases hdot : c = '.'
  · exact Or.inl hdot
  · refine Or.inr ?_
    induction l with
    | nil => exact nomatch hc
    | cons d l ih =>
      rw [List.splitOn_cons_eq_if_modifyHead]
      obtain ⟨first, rest, hsplit⟩ := List.exists_cons_of_ne_nil (List.splitOn_ne_nil '.' l)
      rw [hsplit] at ih ⊢
      by_cases hd : d = '.'
      · have hcl : c ∈ l := (List.mem_cons.mp hc).resolve_left fun heq => hdot (heq.trans hd)
        obtain ⟨segment, hsegment, hmem⟩ := ih hcl
        exact ⟨segment, by simp [hd, List.mem_cons.mp hsegment], hmem⟩
      · rw [if_neg (by simpa using hd), List.modifyHead_cons]
        rcases List.mem_cons.mp hc with rfl | hcl
        · exact ⟨_, List.mem_cons_self, List.mem_cons_self⟩
        · obtain ⟨segment, hsegment, hmem⟩ := ih hcl
          rcases List.mem_cons.mp hsegment with rfl | hsegment
          · exact ⟨_, List.mem_cons_self, List.mem_cons_of_mem _ hmem⟩
          · exact ⟨segment, List.mem_cons_of_mem _ hsegment, hmem⟩

/-! ### On names -/

/-- A character of a name is a dot or stands in a segment. -/
lemma mem_segments {c : Char} (hc : c ∈ name.toList) :
    c = '.' ∨ ∃ segment ∈ segments name, c ∈ segment.toList := by
  refine (mem_splitOn hc).imp_right ?_
  rintro ⟨segment, hsegment, hmem⟩
  exact ⟨String.ofList segment, List.mem_map_of_mem hsegment, by rwa [String.toList_ofList]⟩

lemma no_dot_of_mem_segments {segment : String} (h : segment ∈ segments name) :
    '.' ∉ segment.toList := by
  obtain ⟨piece, hpiece, rfl⟩ := List.mem_map.mp h
  rw [String.toList_ofList]
  exact (of_mem_splitOn hpiece).1

lemma segments_eq_singleton (h : '.' ∉ name.toList) : segments name = [name] := by
  rw [segments, List.splitOn_eq_singleton h, List.map_singleton,
    String.ofList_toList]

/-- A name without an outer name is its only segment. -/
lemma segments_of_outer_eq_none (h : outer? name = none) :
    segments name = [simple name] := by
  have hsplit : splitLast name.toList = none := Option.map_eq_none_iff.mp h
  rw [simple, hsplit]
  exact segments_eq_singleton (not_mem_of_splitLast hsplit)

/-- The segments of a name are those of its outer name, and its simple name. -/
lemma segments_of_outer_eq_some (h : outer? name = some outer) :
    segments name = segments outer ++ [simple name] := by
  obtain ⟨⟨before, after⟩, hsplit, rfl⟩ := Option.map_eq_some_iff.mp h
  obtain ⟨hname, hafter⟩ := eq_append_of_splitLast hsplit
  rw [simple, hsplit, segments, segments, String.toList_ofList, hname,
    List.splitOn_append_cons_self, List.splitOn_eq_singleton hafter, List.map_append,
    List.map_singleton]

lemma outer?_eq_none (h : '.' ∉ name.toList) : outer? name = none := by
  rw [outer?, splitLast_eq_none h, Option.map_none]

lemma toList_member (scope name : String) :
    (member scope name).toList = scope.toList ++ '.' :: name.toList := by
  simp [member]

/-- The outer name of a member is its scope. -/
lemma outer?_member (h : '.' ∉ name.toList) : outer? (member scope name) = some scope := by
  rw [outer?, toList_member, splitLast_append_cons h, Option.map_some, String.ofList_toList]

lemma simple_eq_self (h : '.' ∉ name.toList) : simple name = name := by
  rw [simple, splitLast_eq_none h]

/-- The simple name of a member is what follows the dot. -/
lemma simple_member (h : '.' ∉ name.toList) : simple (member scope name) = name := by
  rw [simple, toList_member, splitLast_append_cons h]
  exact String.ofList_toList

/-- What is inside a scope is named as a member of it. -/
lemma inside?_eq_some_iff : inside? scope name = some rest ↔ name = member scope rest := by
  unfold inside?
  constructor
  · intro h
    split at h
    · next after hsplit =>
      obtain rfl := Option.some.inj h
      apply String.toList_injective
      rw [toList_member, String.toList_ofList]
      exact (List.isPrefixOf?_eq_some_iff_append_eq.mp hsplit).symm
    · exact nomatch h
  · rintro rfl
    have hsplit : scope.toList.isPrefixOf? (member scope rest).toList =
        some ('.' :: rest.toList) := by
      rw [List.isPrefixOf?_eq_some_iff_append_eq, toList_member]
    rw [hsplit]
    exact congrArg some (String.ofList_toList)

lemma segments_member (scope name : String) :
    segments (member scope name) = segments scope ++ segments name := by
  simp only [segments, toList_member, List.splitOn_append_cons_self, List.map_append]

/-- Names with the same segments are the same. -/
lemma segments_injective : Function.Injective segments := by
  intro name other h
  have hsplit := List.map_injective_iff.mpr (fun _ _ => String.ofList_injective) h
  have hjoin := congrArg (['.'].intercalate) hsplit
  rw [List.intercalate_splitOn, List.intercalate_splitOn] at hjoin
  exact String.toList_injective hjoin

end ParcelCompanion.Dotted
