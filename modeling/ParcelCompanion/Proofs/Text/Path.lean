import Mathlib.Data.List.Basic
import ParcelCompanion.Proofs.Lists
import ParcelCompanion.Text.Path

/-!
# Components of paths

What joining a name to a path and taking the parent of a path do to the components, and that
neither makes a relative path absolute or the other way around.
-/

namespace ParcelCompanion.Path

variable {path parent base name : String}

/-! ### On characters -/

/-- The components of a path in characters. -/
def runs (l : List Char) : List (List Char) :=
  (l.splitOn '/').filter (! ·.isEmpty)

lemma components_eq (path : String) : components path = (runs path.toList).map String.ofList := rfl

lemma runs_append_slash (l l' : List Char) : runs (l ++ '/' :: l') = runs l ++ runs l' := by
  simp only [runs, List.splitOn_append_cons_self, List.filter_append]

lemma runs_singleton {l : List Char} (h : '/' ∉ l) (hl : l ≠ []) : runs l = [l] := by
  simp [runs, List.splitOn_eq_singleton h, hl]

/-- Slashes at the end do not count. -/
lemma runs_append_slashes (l : List Char) {slashes : List Char} (h : ∀ c ∈ slashes, c = '/') :
    runs (l ++ slashes) = runs l := by
  induction slashes generalizing l with
  | nil => rw [List.append_nil]
  | cons c slashes ih =>
    obtain ⟨rfl, hslashes⟩ := List.forall_mem_cons.mp h
    have hrest : runs slashes = [] := ih [] hslashes
    rw [runs_append_slash, hrest, List.append_nil]

/-- A component is made of characters of its path. -/
lemma of_mem_runs {l run : List Char} (h : run ∈ runs l) :
    run ≠ [] ∧ '/' ∉ run ∧ run ⊆ l := by
  obtain ⟨hsplit, hrun⟩ := List.mem_filter.mp h
  obtain ⟨hslash, hsub⟩ := of_mem_splitOn hsplit
  exact ⟨by simpa using hrun, hslash, hsub⟩

/-- A text without slashes that is put at the end of a path ends its last component. -/
lemma runs_append {tail : List Char} (htail : '/' ∉ tail) (hne : tail ≠ []) (l : List Char) :
    ∃ front last, runs (l ++ tail) = front ++ [last ++ tail] ∧ (∀ run ∈ front, run ∈ runs l) ∧
      '/' ∉ last ∧ last ⊆ l := by
  by_cases hslash : '/' ∈ l
  · obtain ⟨last, front, hl, hlast⟩ :=
      List.eq_append_cons_of_mem (List.mem_reverse.mpr hslash)
    have hreverse := congrArg List.reverse hl
    rw [List.reverse_reverse, List.reverse_append, List.reverse_cons, List.append_assoc,
      List.singleton_append] at hreverse
    have hlast' : '/' ∉ last.reverse := fun hmem => hlast (List.mem_reverse.mp hmem)
    have hend : '/' ∉ last.reverse ++ tail :=
      fun hmem => (List.mem_append.mp hmem).elim hlast' htail
    refine ⟨runs front.reverse, last.reverse, ?_, fun run hrun => ?_, hlast', ?_⟩
    · rw [hreverse, List.append_assoc, List.cons_append, runs_append_slash,
        runs_singleton hend (List.append_ne_nil_of_right_ne_nil _ hne)]
    · rw [hreverse, runs_append_slash]
      exact List.mem_append_left _ hrun
    · rw [hreverse]
      exact fun c hc => List.mem_append_right _ (List.mem_cons_of_mem _ hc)
  · have hend : '/' ∉ l ++ tail := fun hmem => (List.mem_append.mp hmem).elim hslash htail
    refine ⟨[], l, ?_, nofun, hslash, List.Subset.refl l⟩
    rw [runs_singleton hend (List.append_ne_nil_of_right_ne_nil _ hne), List.nil_append]

/-! ### Joining -/

/-- A name that can be a component of a path. -/
structure IsComponent (name : String) : Prop where
  ne_empty : name ≠ ""
  no_slash : '/' ∉ name.toList

lemma IsComponent.toList_ne_nil (h : IsComponent name) : name.toList ≠ [] :=
  fun hnil => h.ne_empty (String.toList_eq_nil_iff.mp hnil)

lemma IsComponent.not_isAbsolute (h : IsComponent name) : isAbsolute name = false := by
  rw [isAbsolute, beq_eq_false_iff_ne]
  exact fun hhead => h.no_slash (List.mem_of_head? hhead)

lemma join_of_isAbsolute (h : isAbsolute name = true) (base : String) : join base name = name :=
  if_pos h

/-- What a path is with a relative one joined to it: the latter alone, behind a slash that is there,
or behind a new slash. -/
lemma toList_join (h : isAbsolute name = false) (base : String) :
    (join base name).toList = name.toList ∧ base = "" ∨
      ∃ front, (join base name).toList = front ++ '/' :: name.toList ∧
        (base.toList = front ++ ['/'] ∨ base.toList = front ∧ base ≠ "") := by
  rw [join, h]
  by_cases hbase : base = ""
  · exact Or.inl ⟨by simp [hbase], hbase⟩
  · right
    by_cases hslash : base.toList.getLast? = some '/'
    · obtain ⟨front, hfront⟩ := List.getLast?_eq_some_iff.mp hslash
      exact ⟨front, by simp [hfront], Or.inl hfront⟩
    · exact ⟨base.toList, by simp [hslash, hbase], Or.inr ⟨rfl, hbase⟩⟩

/-- The components of a relative path come behind those of the path that it is joined to. -/
lemma components_join_of_relative (h : isAbsolute name = false) (base : String) :
    components (join base name) = components base ++ components name := by
  simp only [components_eq]
  rcases toList_join h base with ⟨htext, rfl⟩ | ⟨front, htext, hbase | ⟨hbase, -⟩⟩
  · rw [htext]
    rfl
  · rw [htext, runs_append_slash, List.map_append, hbase, runs_append_slash]
    simp [runs]
  · rw [htext, runs_append_slash, List.map_append, hbase]

lemma IsComponent.components_eq (h : IsComponent name) : components name = [name] := by
  rw [Path.components_eq, runs_singleton h.no_slash h.toList_ne_nil, List.map_singleton,
    String.ofList_toList]

/-- A name that is joined to a path is one more component. -/
lemma components_join (h : IsComponent name) :
    components (join base name) = components base ++ [name] := by
  rw [components_join_of_relative h.not_isAbsolute, h.components_eq]

lemma isAbsolute_join (h : isAbsolute name = false) :
    isAbsolute (join base name) = isAbsolute base := by
  rcases toList_join h base with ⟨htext, rfl⟩ | ⟨front, htext, hbase | ⟨hbase, hne⟩⟩
  · rw [isAbsolute] at h ⊢
    rw [htext, h]
    rfl
  · rw [isAbsolute, isAbsolute, htext, hbase]
    cases front <;> rfl
  · rw [isAbsolute, isAbsolute, htext, hbase]
    cases front with
    | nil => exact absurd (String.toList_eq_nil_iff.mp hbase) hne
    | cons c front => rfl

/-- The text behind the last slash is the name that was joined. -/
lemma getLast?_splitOn_join (h : IsComponent name) :
    ((join base name).toList.splitOn '/').getLast? = some name.toList := by
  rcases toList_join h.not_isAbsolute base with ⟨htext, -⟩ | ⟨front, htext, -⟩
  · rw [htext, List.splitOn_eq_singleton h.no_slash]
    rfl
  · rw [htext, List.splitOn_append_cons_self, List.splitOn_eq_singleton h.no_slash,
      List.getLast?_concat]

/-! ### Parents -/

/-- What comes before the last component of a path, without the slashes at its end.  If there is
nothing but slashes, the first of them stays. -/
def trim (lead : List Char) : List Char :=
  let trimmed := lead.reverse.dropWhile (· == '/')
  if trimmed.isEmpty then lead.reverse.take 1 else trimmed.reverse

/-- A path that has a parent is what comes before its last component, the component, and slashes. -/
lemma exists_of_parent? (h : parent? path = some parent) :
    ∃ lead component slashes : List Char, path.toList = lead ++ component ++ slashes ∧
      (∀ c ∈ slashes, c = '/') ∧ '/' ∉ component ∧ component ≠ [] ∧
      (lead = [] ∨ lead.getLast? = some '/') ∧ parent.toList = trim lead := by
  -- the path is taken apart from its end
  obtain ⟨slashes, reversed, hpath, hslashes, hreversed⟩ :=
    exists_run (· == '/') path.toList.reverse
  obtain ⟨component, front, rfl, hcomponent, hfront⟩ := exists_run (· != '/') reversed
  have hlist := congrArg List.reverse hpath
  simp only [List.reverse_reverse, List.reverse_append] at hlist
  rw [parent?, hpath, dropWhile_append_of_boundary hslashes hreversed] at h
  simp only [dropWhile_append_of_boundary hcomponent hfront] at h
  have hlast : ∀ c ∈ front.head?, c = '/' := fun c hc => by simpa using hfront c hc
  have hne : component ≠ [] := by
    rintro rfl
    cases front with
    | nil => simp at h
    | cons c front => exact absurd (hlast c rfl) (by simpa using hreversed c rfl)
  have hempty : (component ++ front).isEmpty = false := by simp [hne]
  rw [hempty] at h
  refine ⟨front.reverse, component.reverse, slashes.reverse, hlist, fun c hc => ?_, fun hmem => ?_,
    by simpa using hne, ?_, ?_⟩
  · simpa using hslashes c (List.mem_reverse.mp hc)
  · exact absurd (hcomponent _ (List.mem_reverse.mp hmem)) (by decide)
  · rw [List.getLast?_reverse]
    cases front with
    | nil => exact Or.inl rfl
    | cons c front => exact Or.inr (congrArg some (hlast c rfl))
  · have hparent := congrArg String.toList (Option.some.inj h)
    rw [String.toList_ofList] at hparent
    rw [trim, List.reverse_reverse, ← hparent]

/-- Trimming takes slashes away, but not everything. -/
lemma exists_of_trim (lead : List Char) :
    ∃ slashes, lead = trim lead ++ slashes ∧ (∀ c ∈ slashes, c = '/') ∧
      (trim lead = [] → lead = []) := by
  obtain ⟨slashes, trimmed, hlead, hrun, htrimmed⟩ := exists_run (· == '/') lead.reverse
  have hslashes : ∀ c ∈ slashes, c = '/' := fun c hc => by simpa using hrun c hc
  have hreverse : slashes.reverse = slashes := by
    rw [List.eq_replicate_of_mem hslashes, List.reverse_replicate]
  have hlist : lead = trimmed.reverse ++ slashes := by
    have h := congrArg List.reverse hlead
    rwa [List.reverse_reverse, List.reverse_append, hreverse] at h
  rw [trim, hlead, dropWhile_append_of_boundary hrun htrimmed]
  cases trimmed with
  | cons c trimmed => exact ⟨slashes, hlist, hslashes, fun h => by simp at h⟩
  | nil =>
    refine ⟨slashes.drop 1, ?_, fun c hc => hslashes c (List.mem_of_mem_drop hc), ?_⟩
    · have hsplit := List.take_append_drop 1 slashes
      exact hlist.trans (by simpa using hsplit.symm)
    · simp [hlist]

lemma runs_trim (lead : List Char) : runs (trim lead) = runs lead := by
  obtain ⟨slashes, hlead, hslashes, -⟩ := exists_of_trim lead
  conv_rhs => rw [hlead, runs_append_slashes _ hslashes]

lemma head?_trim (lead : List Char) : (trim lead).head? = lead.head? := by
  obtain ⟨slashes, hlead, -, hnil⟩ := exists_of_trim lead
  cases htrim : trim lead with
  | nil => rw [hnil htrim]
  | cons c cs => rw [hlead, htrim, List.cons_append, List.head?_cons, List.head?_cons]

/-- The parent of a path lacks the last component. -/
lemma components_parent? (h : parent? path = some parent) :
    components parent = (components path).dropLast := by
  obtain ⟨lead, component, slashes, hpath, hslashes, hcomponent, hne, hlast, hparent⟩ :=
    exists_of_parent? h
  have hruns : runs path.toList = runs lead ++ [component] := by
    rw [hpath, runs_append_slashes _ hslashes]
    rcases hlast with rfl | hlast
    · exact runs_singleton hcomponent hne
    · obtain ⟨front, rfl⟩ := List.getLast?_eq_some_iff.mp hlast
      rw [List.append_assoc, List.singleton_append, runs_append_slash, runs_append_slash,
        runs_singleton hcomponent hne]
      simp [runs]
  rw [components_eq, components_eq, hruns, List.map_append, List.map_singleton,
    List.dropLast_concat, hparent, runs_trim]

lemma isAbsolute_parent? (h : parent? path = some parent) :
    isAbsolute parent = isAbsolute path := by
  obtain ⟨lead, component, slashes, hpath, -, hcomponent, hne, hlast, hparent⟩ :=
    exists_of_parent? h
  rw [isAbsolute, isAbsolute, hparent, head?_trim, hpath]
  cases lead with
  | cons c lead => rfl
  | nil =>
    have hhead : component.head? ≠ some '/' := fun hc => hcomponent (List.mem_of_head? hc)
    rw [List.nil_append, List.head?_append_of_ne_nil _ hne]
    exact (beq_eq_false_iff_ne.mpr hhead).symm

/-- Only a path without components has no parent. -/
lemma components_of_parent?_eq_none (h : parent? path = none) : components path = [] := by
  obtain ⟨slashes, reversed, hpath, hslashes, hreversed⟩ :=
    exists_run (· == '/') path.toList.reverse
  rw [parent?, hpath, dropWhile_append_of_boundary hslashes hreversed] at h
  have hnil : reversed = [] := by simpa using h
  rw [hnil, List.append_nil] at hpath
  have hruns : runs path.toList = [] := runs_append_slashes [] fun c hc => by
    simpa using hslashes c (hpath ▸ List.mem_reverse.mpr hc)
  rw [components_eq, hruns, List.map_nil]

/-! ### Below a path -/

/-- A path has the components of another one and the given names below it. -/
structure IsBelow (base : String) (names : List String) (path : String) : Prop where
  components : components path = components base ++ names
  isAbsolute : isAbsolute path = isAbsolute base

lemma isBelow_foldl_join {names : List String} (h : ∀ name ∈ names, IsComponent name)
    (base : String) : IsBelow base names (names.foldl join base) := by
  induction names generalizing base with
  | nil => exact ⟨by rw [List.foldl_nil, List.append_nil], rfl⟩
  | cons name names ih =>
    obtain ⟨hname, hnames⟩ := List.forall_mem_cons.mp h
    obtain ⟨hcomponents, habsolute⟩ := ih hnames (join base name)
    refine ⟨?_, ?_⟩
    · rw [List.foldl_cons, hcomponents, components_join hname, List.append_assoc,
        List.singleton_append]
    · rw [List.foldl_cons, habsolute, isAbsolute_join hname.not_isAbsolute]

/-- The parent of a path below another one is below it by one name less. -/
lemma IsBelow.of_parent? {names : List String} (h : IsBelow base names path) (hnames : names ≠ [])
    (hparent : parent? path = some parent) : IsBelow base names.dropLast parent := by
  refine ⟨?_, ?_⟩
  · rw [components_parent? hparent, h.components, List.dropLast_append_of_ne_nil hnames]
  · rw [isAbsolute_parent? hparent, h.isAbsolute]

end ParcelCompanion.Path
