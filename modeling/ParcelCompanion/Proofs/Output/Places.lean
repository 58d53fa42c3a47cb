import ParcelCompanion.Proofs.Output.Directory

/-!
# Where names lead

The name of a unit may be any text.  Its parts are joined to the root one by one, so a part with
slashes is several components, and a part that starts with a slash leads away from everything before
it.  The place of a name says where its path leads, without the tree.

Names whose packages have no empty segments and no slashes have places of their own, all of them
below the root.  Other names may share a place or lie outside the root.
-/

namespace ParcelCompanion

open FileTree

namespace DirectoryLog

variable {root name part : String} {tree : FileTree} {base location : Location}

/-! ### Pieces of paths -/

/-- The place that pieces of paths lead to from a location, when they are joined one by one. -/
def descend (base : Location) (pieces : List String) : Location :=
  pieces.foldl (fun location piece =>
    if Path.isAbsolute piece then Path.components piece
    else location ++ Path.components piece) base

/-- The place of the file for a name, below a location unless a part leads away from it. -/
def place (base : Location) (name : String) : Location :=
  descend base (parts name)

lemma components_foldl_join (pieces : List String) (root : String) :
    Path.components (pieces.foldl Path.join root) = descend (Path.components root) pieces := by
  induction pieces generalizing root with
  | nil => rfl
  | cons piece pieces ih =>
    rw [List.foldl_cons, ih, descend, descend, List.foldl_cons]
    cases habsolute : Path.isAbsolute piece with
    | true => rw [Path.join_of_isAbsolute habsolute, if_pos rfl]
    | false =>
      rw [Path.components_join_of_relative habsolute, if_neg Bool.false_ne_true]

lemma isAbsolute_foldl_join (pieces : List String) (root : String) :
    Path.isAbsolute (pieces.foldl Path.join root) =
      (Path.isAbsolute root || pieces.any Path.isAbsolute) := by
  induction pieces generalizing root with
  | nil => simp
  | cons piece pieces ih =>
    rw [List.foldl_cons, ih, List.any_cons]
    cases habsolute : Path.isAbsolute piece with
    | true => simp [Path.join_of_isAbsolute habsolute, habsolute]
    | false => rw [Path.isAbsolute_join habsolute, Bool.false_or]

/-- Pieces lead to one place from everywhere, or down by the same entries from every location,
depending on whether some piece is absolute. -/
lemma descend_cases (pieces : List String) :
    ∃ entries, (∀ entry ∈ entries, ∃ piece ∈ pieces, entry ∈ Path.components piece) ∧
      (pieces.any Path.isAbsolute = true ∧ (∀ base, descend base pieces = entries) ∨
        pieces.any Path.isAbsolute = false ∧ ∀ base, descend base pieces = base ++ entries) := by
  induction pieces with
  | nil => exact ⟨[], nofun, Or.inr ⟨rfl, fun base => (List.append_nil base).symm⟩⟩
  | cons piece pieces ih =>
    obtain ⟨entries, hentries, hcases⟩ := ih
    have hlater : ∀ entry ∈ entries, ∃ piece' ∈ piece :: pieces, entry ∈ Path.components piece' := by
      intro entry hentry
      obtain ⟨piece', hpiece', hmem⟩ := hentries entry hentry
      exact ⟨piece', List.mem_cons_of_mem _ hpiece', hmem⟩
    have hall : ∀ entry ∈ Path.components piece ++ entries,
        ∃ piece' ∈ piece :: pieces, entry ∈ Path.components piece' := by
      intro entry hentry
      rcases List.mem_append.mp hentry with hfirst | hrest
      · exact ⟨piece, List.mem_cons_self, hfirst⟩
      · exact hlater entry hrest
    rcases hcases with ⟨hany, heverywhere⟩ | ⟨hany, hbelow⟩
    · exact ⟨entries, hlater, Or.inl ⟨by rw [List.any_cons, hany, Bool.or_true],
        fun base => heverywhere _⟩⟩
    · refine ⟨Path.components piece ++ entries, hall, ?_⟩
      cases habsolute : Path.isAbsolute piece with
      | true =>
        refine Or.inl ⟨by rw [List.any_cons, habsolute, Bool.true_or], fun base => ?_⟩
        rw [← hbelow, descend, List.foldl_cons, habsolute, if_pos rfl]
        rfl
      | false =>
        refine Or.inr ⟨by rw [List.any_cons, habsolute, hany, Bool.or_self], fun base => ?_⟩
        rw [← List.append_assoc, ← hbelow, descend, List.foldl_cons, habsolute,
          if_neg Bool.false_ne_true]
        rfl

/-! ### Paths of any names -/

/-- The components of a text without dots are names of entries. -/
lemma isEntryName_of_mem_plain {text entry : String} (htext : '.' ∉ text.toList)
    (hentry : entry ∈ Path.components text) : IsEntryName entry := by
  obtain ⟨run, hrun, rfl⟩ := List.mem_map.mp (Path.components_eq text ▸ hentry)
  obtain ⟨hne, hslash, hsub⟩ := Path.of_mem_runs hrun
  have hcomponent : Path.IsComponent (String.ofList run) := by
    refine ⟨fun hempty => hne ?_, by rwa [String.toList_ofList]⟩
    rw [← String.toList_ofList (l := run), hempty]
    rfl
  refine isEntryName_of_no_dot hcomponent fun hdot => htext ?_
  rw [String.toList_ofList] at hdot
  exact hsub hdot

/-- Whatever a name is, what its parts are made of are names of entries. -/
lemma isEntryName_of_mem_components {entry : String} (hpart : part ∈ parts name)
    (hentry : entry ∈ Path.components part) : IsEntryName entry := by
  have hsegments : ∀ segment ∈ Dotted.segments name, '.' ∉ segment.toList :=
    fun segment hsegment => Dotted.no_dot_of_mem_segments hsegment
  rw [segments_eq_concat name] at hsegments
  rcases List.mem_append.mp hpart with hpackage | hsimple
  · have hsegment := (List.mem_filter.mp hpackage).1
    exact isEntryName_of_mem_plain (hsegments part (List.mem_append_left _ hsegment)) hentry
  · have hdot := hsegments _ (List.mem_append_right _ (List.mem_singleton_self _))
    obtain ⟨front, last, hcomponents, hfront, hlast⟩ := components_java (Dotted.simple name)
    rw [List.mem_singleton.mp hsimple, hcomponents] at hentry
    rcases List.mem_append.mp hentry with hentry | hentry
    · exact isEntryName_of_mem_plain hdot (hfront entry hentry)
    · rw [List.mem_singleton.mp hentry]
      exact isEntryName_java hlast

/-- The path of a unit goes down from the root, unless some part is absolute. -/
lemma pathFor_cases (root name : String) :
    ∃ entries, (∀ entry ∈ entries, IsEntryName entry) ∧
      ((parts name).any Path.isAbsolute = true ∧
          Path.isAbsolute (pathFor root name) = true ∧
          Path.components (pathFor root name) = entries ∧ (∀ base, place base name = entries) ∨
        (parts name).any Path.isAbsolute = false ∧
          Path.IsBelow root entries (pathFor root name) ∧
          ∀ base, place base name = base ++ entries) := by
  obtain ⟨entries, hparts, hcases⟩ := descend_cases (parts name)
  have hentries : ∀ entry ∈ entries, IsEntryName entry := by
    intro entry hentry
    obtain ⟨part, hpart, hmem⟩ := hparts entry hentry
    exact isEntryName_of_mem_components hpart hmem
  have hcomponents : Path.components (pathFor root name) = place (Path.components root) name := by
    rw [pathFor_eq_foldl, components_foldl_join, place]
  have habsolute : Path.isAbsolute (pathFor root name) =
      (Path.isAbsolute root || (parts name).any Path.isAbsolute) := by
    rw [pathFor_eq_foldl, isAbsolute_foldl_join]
  refine ⟨entries, hentries, ?_⟩
  rcases hcases with ⟨hany, heverywhere⟩ | ⟨hany, hbelow⟩
  · refine Or.inl ⟨hany, ?_, hcomponents.trans (heverywhere _), heverywhere⟩
    rw [habsolute, hany, Bool.or_true]
  · refine Or.inr ⟨hany, ⟨hcomponents.trans (hbelow _), ?_⟩, hbelow⟩
    rw [habsolute, hany, Bool.or_false]

/-- Where the path of a unit leads is its place below where the root leads, or its place below
anything. -/
lemma place_of_follow (h : tree.follow (tree.start (pathFor root name))
      (steps (pathFor root name)) = .ok location) :
    (∃ base, tree.follow (tree.start root) (steps root) = .ok base ∧ place base name = location) ∨
      ∀ base, place base name = location := by
  obtain ⟨entries, hentries, hcases⟩ := pathFor_cases root name
  have hplain : ∀ entry ∈ entries, entry ≠ ".." := fun entry hentry => (hentries entry hentry).ne_dots
  rcases hcases with ⟨-, habsolute, hcomponents, heverywhere⟩ | ⟨-, hpath, hbelow⟩
  · right
    have hsteps : steps (pathFor root name) = entries := by
      rw [steps, hcomponents]
      exact List.filter_eq_self.mpr fun entry hentry =>
        bne_iff_ne.mpr (hentries entry hentry).ne_dot
    rw [start, habsolute, if_pos rfl, hsteps] at h
    obtain ⟨-, hlocation, -⟩ := (follow_eq_ok_iff hplain).mp h
    exact fun base => (heverywhere base).trans hlocation
  · left
    rw [start_of_isBelow hpath, steps_of_isBelow hpath hentries] at h
    obtain ⟨base, hbase, hrest⟩ := exists_follow_of_append h
    obtain ⟨-, hlocation, -⟩ := (follow_eq_ok_iff hplain).mp hrest
    exact ⟨base, hbase, (hbelow base).trans hlocation⟩

/-- Without an absolute part, a name has its place below every location. -/
lemma prefix_place (h : (parts name).any Path.isAbsolute = false) (base : Location) :
    base <+: place base name := by
  obtain ⟨entries, -, ⟨habsolute, -⟩ | ⟨-, -, hbelow⟩⟩ := pathFor_cases "" name
  · exact nomatch h.symm.trans habsolute
  · exact ⟨entries, (hbelow base).symm⟩

/-! ### Plain names -/

/-- A plain name leads below the root by one entry for each segment. -/
lemma IsPlain.place_eq (h : IsPlain name) (base : Location) :
    place base name = base ++ entryNames name := by
  have hplain := isBelow_pathFor "" h
  obtain ⟨entries, -, ⟨-, habsolute, -⟩ | ⟨-, hpath, hbelow⟩⟩ := pathFor_cases "" name
  · rw [hplain.isAbsolute] at habsolute
    exact nomatch habsolute
  · have hentries : entries = entryNames name :=
      List.append_cancel_left (hpath.components.symm.trans hplain.components)
    rw [hbelow, hentries]

/-- Different plain names have different places. -/
lemma IsPlain.place_inj (h : IsPlain name) {other : String} (hother : IsPlain other)
    (hplace : place base name = place base other) : name = other := by
  rw [h.place_eq, hother.place_eq] at hplace
  exact entryNames_injective (List.append_cancel_left hplace)

end DirectoryLog

end ParcelCompanion
