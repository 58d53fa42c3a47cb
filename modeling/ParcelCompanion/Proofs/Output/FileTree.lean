import Mathlib.Data.List.Infix
import ParcelCompanion.Output.FileTree
import ParcelCompanion.Proofs.Answer
import ParcelCompanion.Proofs.Text.Path

/-!
# Following paths in file trees

Plain entry names lead from a directory straight down: to follow them is to find a directory before
each of them.  What a path leads to stays there when the tree grows.  An operation that fails leaves
the tree as it was, and one that succeeds changes it at one location.
-/

namespace ParcelCompanion

/-- Whether a fault comes from the file system.  A sink refuses by itself only names and bytes. -/
def OutputFault.isOfFiles : OutputFault → Bool
  | .recreated _ | .notText _ => false
  | .endedPath | .file _ | .other _ => true

namespace FileTree

variable {tree tree' : FileTree} {base location other : Location} {name path : String}
  {names rest : List String} {node : FileNode}

/-! ### Steps -/

lemma enter_eq_ok_iff : tree.enter location = .ok () ↔ tree.node? location = some .directory := by
  rw [enter]
  split <;> simp_all

lemma follow_cons_eq_ok_iff : tree.follow location (name :: names) = .ok base ↔
    ∃ next, tree.entry location name = .ok next ∧ (tree.node? next).isSome ∧
      tree.follow next names = .ok base := by
  rw [follow, bind_eq_ok_iff]
  refine exists_congr fun next => and_congr_right fun _ => ?_
  cases hnext : tree.node? next <;> simp [throw, throwThe, MonadExceptOf.throw]

lemma target_cons_eq_ok_iff (hnames : names ≠ []) :
    tree.target location (name :: names) = .ok base ↔
      ∃ next, tree.entry location name = .ok next ∧ (tree.node? next).isSome ∧
        tree.target next names = .ok base := by
  obtain ⟨name', names', rfl⟩ := List.exists_cons_of_ne_nil hnames
  rw [target, bind_eq_ok_iff]
  · refine exists_congr fun next => and_congr_right fun _ => ?_
    cases hnext : tree.node? next <;> simp [throw, throwThe, MonadExceptOf.throw]
  · exact nofun

/-! ### What is at a location -/

@[simp] lemma node?_nil (tree : FileTree) : tree.node? [] = some .directory := rfl

lemma node?_put (h : location ≠ []) (other : Location) :
    (tree.put location node).node? other =
      if other = location then some node else tree.node? other := by
  by_cases hother : other = location
  · subst hother
    simp [node?, put, h]
  · by_cases hnil : other = []
    · simp [node?, hnil, h.symm]
    · simp [node?, put, hnil, hother, Std.TreeMap.getElem?_insert, Ne.symm hother]

/-! ### Plain names -/

/-- A name that stands for an entry of a directory, and not for the directory or the one above. -/
structure IsEntryName (name : String) : Prop extends Path.IsComponent name where
  ne_dot : name ≠ "."
  ne_dots : name ≠ ".."

lemma steps_of_isBelow {root : String} (h : Path.IsBelow root names path)
    (hnames : ∀ name ∈ names, IsEntryName name) : steps path = steps root ++ names := by
  have hfilter : names.filter (· != ".") = names :=
    List.filter_eq_self.mpr fun name hname => bne_iff_ne.mpr (hnames name hname).ne_dot
  rw [steps, steps, h.components, List.filter_append, hfilter]

/-- The names are short enough for entries, and there is a directory before each of them. -/
structure Leads (tree : FileTree) (base : Location) (names : List String) : Prop where
  directory : ∀ front, front <+: names → front ≠ names →
    tree.node? (base ++ front) = some .directory
  short : ∀ name ∈ names, name.utf8ByteSize ≤ maxNameBytes

lemma leads_nil : tree.Leads base [] :=
  ⟨fun _ hfront hne => absurd (List.prefix_nil.mp hfront) hne, by simp⟩

lemma leads_cons_iff : tree.Leads base (name :: names) ↔
    tree.node? base = some .directory ∧ name.utf8ByteSize ≤ maxNameBytes ∧
      tree.Leads (base ++ [name]) names := by
  constructor
  · intro h
    refine ⟨by simpa using h.directory [] (List.nil_prefix) (List.cons_ne_nil _ _).symm,
      h.short name List.mem_cons_self, fun front hfront hne => ?_, fun other hother => ?_⟩
    · rw [List.append_assoc]
      have hcons : name :: front <+: name :: names := (List.prefix_cons_inj name).mpr hfront
      exact h.directory (name :: front) hcons (by simpa using hne)
    · exact h.short other (List.mem_cons_of_mem _ hother)
  · rintro ⟨hbase, hshort, h⟩
    refine ⟨fun front hfront hne => ?_, List.forall_mem_cons.mpr ⟨hshort, h.short⟩⟩
    rcases List.prefix_cons_iff.mp hfront with rfl | ⟨rest, rfl, hfront⟩
    · rwa [List.append_nil]
    · have hrest := h.directory rest ((List.prefix_cons_inj name).mp hfront) (by simpa using hne)
      rwa [List.append_assoc] at hrest

lemma entry_eq_ok_iff (hname : name ≠ "..") : tree.entry base name = .ok location ↔
    tree.node? base = some .directory ∧ name.utf8ByteSize ≤ maxNameBytes ∧
      base ++ [name] = location := by
  rw [entry, bind_eq_ok_iff, if_neg hname]
  by_cases hsize : maxNameBytes < name.utf8ByteSize
  · rw [if_pos hsize]
    constructor
    · rintro ⟨_, _, h⟩
      exact nomatch h
    · rintro ⟨_, h, _⟩
      exact absurd hsize (Nat.not_lt.mpr h)
  · have henter : (∃ done, tree.enter base = .ok done) ↔ tree.node? base = some .directory :=
      ⟨fun ⟨_, h⟩ => enter_eq_ok_iff.mp h, fun h => ⟨(), enter_eq_ok_iff.mpr h⟩⟩
    simp [hsize, henter, Nat.le_of_not_lt hsize]

/-- Names without `..` are followed to the location that they spell below the base, if there are
directories on the way and something is there. -/
lemma follow_eq_ok_iff (hnames : ∀ name ∈ names, name ≠ "..") :
    tree.follow base names = .ok location ↔ tree.Leads base names ∧ base ++ names = location ∧
      (names = [] ∨ (tree.node? location).isSome) := by
  induction names generalizing base with
  | nil => simp [follow, leads_nil]
  | cons name names ih =>
    obtain ⟨hname, hnames⟩ := List.forall_mem_cons.mp hnames
    simp only [follow_cons_eq_ok_iff, entry_eq_ok_iff hname, leads_cons_iff, ih hnames]
    constructor
    · rintro ⟨next, ⟨hbase, hshort, rfl⟩, hnext, hleads, rfl, hlast⟩
      refine ⟨⟨hbase, hshort, hleads⟩, by simp, Or.inr ?_⟩
      rcases hlast with rfl | hlast
      · rwa [List.append_nil]
      · exact hlast
    · rintro ⟨⟨hbase, hshort, hleads⟩, rfl, hlast⟩
      have hlast := hlast.resolve_left (List.cons_ne_nil _ _)
      refine ⟨base ++ [name], ⟨hbase, hshort, rfl⟩, ?_, hleads, by simp, Or.inr hlast⟩
      cases names with
      | nil => exact hlast
      | cons name' names =>
        rw [(leads_cons_iff.mp hleads).1]
        rfl

/-- Names without `..` have for their target the location that they spell below the base, if there
are directories on the way.  Nothing need be there. -/
lemma target_eq_ok_iff (hnames : ∀ name ∈ names, name ≠ "..") :
    tree.target base names = .ok location ↔ tree.Leads base names ∧ base ++ names = location := by
  induction names generalizing base with
  | nil => simp [target, leads_nil]
  | cons name names ih =>
    obtain ⟨hname, hnames⟩ := List.forall_mem_cons.mp hnames
    rw [leads_cons_iff]
    by_cases hnil : names = []
    · subst hnil
      rw [target, entry_eq_ok_iff hname]
      simp [leads_nil, and_assoc]
    · simp only [target_cons_eq_ok_iff hnil, entry_eq_ok_iff hname, ih hnames]
      constructor
      · rintro ⟨next, ⟨hbase, hshort, rfl⟩, hnext, hleads, rfl⟩
        exact ⟨⟨hbase, hshort, hleads⟩, by simp⟩
      · rintro ⟨⟨hbase, hshort, hleads⟩, rfl⟩
        refine ⟨base ++ [name], ⟨hbase, hshort, rfl⟩, ?_, hleads, by simp⟩
        rw [show tree.node? (base ++ [name]) = some .directory by
          simpa using hleads.directory [] List.nil_prefix (Ne.symm hnil)]
        rfl

/-! ### Longer paths -/

lemma follow_append_eq_ok_iff (h : tree.follow location names = .ok base) :
    tree.follow location (names ++ rest) = .ok other ↔ tree.follow base rest = .ok other := by
  induction names generalizing location with
  | nil =>
    obtain rfl : location = base := Except.ok.inj h
    rfl
  | cons name names ih =>
    obtain ⟨next, hentry, hnext, h⟩ := follow_cons_eq_ok_iff.mp h
    simp [follow_cons_eq_ok_iff, hentry, hnext, ih h]

/-- What leads somewhere leads first to a location on the way. -/
lemma exists_follow_of_append (h : tree.follow location (names ++ rest) = .ok other) :
    ∃ base, tree.follow location names = .ok base ∧ tree.follow base rest = .ok other := by
  induction names generalizing location with
  | nil => exact ⟨location, rfl, h⟩
  | cons name names ih =>
    obtain ⟨next, hentry, hnext, hrest⟩ := follow_cons_eq_ok_iff.mp h
    obtain ⟨base, hbase, hother⟩ := ih hrest
    exact ⟨base, follow_cons_eq_ok_iff.mpr ⟨next, hentry, hnext, hbase⟩, hother⟩

lemma target_of_follow (h : tree.follow location names = .ok base) :
    tree.target location names = .ok base := by
  induction names generalizing location with
  | nil => exact h
  | cons name names ih =>
    obtain ⟨next, hentry, hnext, h⟩ := follow_cons_eq_ok_iff.mp h
    cases names with
    | nil =>
      obtain rfl : next = base := Except.ok.inj h
      exact hentry
    | cons name' names =>
      exact (target_cons_eq_ok_iff (List.cons_ne_nil _ _)).mpr ⟨next, hentry, hnext, ih h⟩

lemma target_append_eq_ok_iff (h : tree.follow location names = .ok base) (hrest : rest ≠ []) :
    tree.target location (names ++ rest) = .ok other ↔ tree.target base rest = .ok other := by
  induction names generalizing location with
  | nil =>
    obtain rfl : location = base := Except.ok.inj h
    rfl
  | cons name names ih =>
    obtain ⟨next, hentry, hnext, h⟩ := follow_cons_eq_ok_iff.mp h
    rw [List.cons_append, target_cons_eq_ok_iff (List.append_ne_nil_of_right_ne_nil _ hrest)]
    simp [hentry, hnext, ih h]

/-! ### Paths below a directory -/

lemma isDirectoryAt_iff : tree.isDirectoryAt path = true ↔ tree.nodeAt? path = some .directory := by
  rw [isDirectoryAt]
  split <;> simp_all

lemma nodeAt?_eq_some_iff : tree.nodeAt? path = some node ↔
    ∃ location, tree.follow (tree.start path) (steps path) = .ok location ∧
      tree.node? location = some node := by
  rw [nodeAt?]
  cases tree.follow (tree.start path) (steps path) <;> simp

lemma start_of_isBelow {root : String} (h : Path.IsBelow root names path) :
    tree.start path = tree.start root := by
  rw [start, start, h.isAbsolute]

/-- What is at a path below one that leads to a base is what is at the location below the base. -/
lemma nodeAt?_eq_some_iff_of_isBelow {root : String}
    (hroot : tree.follow (tree.start root) (steps root) = .ok base)
    (hpath : Path.IsBelow root names path) (hnames : ∀ name ∈ names, IsEntryName name) :
    tree.nodeAt? path = some node ↔
      tree.Leads base names ∧ tree.node? (base ++ names) = some node := by
  have hplain : ∀ name ∈ names, name ≠ ".." := fun name hname => (hnames name hname).ne_dots
  simp only [nodeAt?_eq_some_iff, start_of_isBelow hpath, steps_of_isBelow hpath hnames,
    follow_append_eq_ok_iff hroot, follow_eq_ok_iff hplain]
  constructor
  · rintro ⟨location, ⟨hleads, rfl, -⟩, hnode⟩
    exact ⟨hleads, hnode⟩
  · rintro ⟨hleads, hnode⟩
    exact ⟨base ++ names, ⟨hleads, rfl, Or.inr (by rw [hnode]; rfl)⟩, hnode⟩

/-- A file is read at a path whose last component is the name of an entry. -/
lemma contents?_eq_some {contents : ByteArray} (h : tree.nodeAt? path = some (.file contents))
    (hname : IsEntryName name) (hlast : (path.toList.splitOn '/').getLast? = some name.toList) :
    tree.contents? path = some contents := by
  have hempty : name.toList ≠ [] := hname.toIsComponent.toList_ne_nil
  have hdot : name.toList ≠ ['.'] := fun hdot =>
    hname.ne_dot (String.toList_injective (hdot.trans (by decide)))
  simp [contents?, h, hlast, hempty, hdot]

/-- A path below one that leads to a base has for its target the location that its further names
spell below the base, if there are directories on the way. -/
lemma target_eq_ok_iff_of_isBelow {root : String}
    (hroot : tree.follow (tree.start root) (steps root) = .ok base)
    (hpath : Path.IsBelow root names path) (hnames : ∀ name ∈ names, IsEntryName name) :
    tree.target (tree.start path) (steps path) = .ok location ↔
      tree.Leads base names ∧ base ++ names = location := by
  have hplain : ∀ name ∈ names, name ≠ ".." := fun name hname => (hnames name hname).ne_dots
  rw [start_of_isBelow hpath, steps_of_isBelow hpath hnames]
  by_cases hnil : names = []
  · rw [hnil, List.append_nil, List.append_nil, target_of_follow hroot]
    simp [leads_nil]
  · rw [target_append_eq_ok_iff hroot hnil, target_eq_ok_iff hplain]

/-! ### Growth -/

/-- Directories stay, and nothing is taken away. -/
structure Grows (tree tree' : FileTree) : Prop where
  current : tree'.current = tree.current
  directory : ∀ location, tree.node? location = some .directory →
    tree'.node? location = some .directory
  isSome : ∀ location, (tree.node? location).isSome → (tree'.node? location).isSome

lemma Grows.trans {tree'' : FileTree} (h : tree.Grows tree') (h' : tree'.Grows tree'') :
    tree.Grows tree'' :=
  ⟨h'.current.trans h.current,
    fun location hlocation => h'.directory location (h.directory location hlocation),
    fun location hlocation => h'.isSome location (h.isSome location hlocation)⟩

lemma Leads.grows (h : tree.Leads base names) (hgrows : tree.Grows tree') :
    tree'.Leads base names :=
  ⟨fun front hfront hne => hgrows.directory _ (h.directory front hfront hne), h.short⟩

lemma Grows.entry (h : tree.Grows tree') (hentry : tree.entry location name = .ok other) :
    tree'.entry location name = .ok other := by
  obtain ⟨_, henter, hother⟩ := bind_eq_ok_iff.mp hentry
  have hdirectory := h.directory location (enter_eq_ok_iff.mp henter)
  exact bind_eq_ok_iff.mpr ⟨(), enter_eq_ok_iff.mpr hdirectory, hother⟩

lemma Grows.follow (h : tree.Grows tree') (hfollow : tree.follow location names = .ok base) :
    tree'.follow location names = .ok base := by
  induction names generalizing location with
  | nil => exact hfollow
  | cons name names ih =>
    obtain ⟨next, hentry, hnext, hfollow⟩ := follow_cons_eq_ok_iff.mp hfollow
    exact follow_cons_eq_ok_iff.mpr ⟨next, h.entry hentry, h.isSome next hnext, ih hfollow⟩

/-- The place for a new entry is where its path leads once there is something. -/
lemma Grows.follow_of_target (h : tree.Grows tree')
    (htarget : tree.target location names = .ok other) (hother : (tree'.node? other).isSome) :
    tree'.follow location names = .ok other := by
  induction names generalizing location with
  | nil => exact htarget
  | cons name names ih =>
    by_cases hnames : names = []
    · subst hnames
      exact follow_cons_eq_ok_iff.mpr ⟨other, h.entry htarget, hother, rfl⟩
    · obtain ⟨next, hentry, hnext, hrest⟩ := (target_cons_eq_ok_iff hnames).mp htarget
      exact follow_cons_eq_ok_iff.mpr ⟨next, h.entry hentry, h.isSome next hnext, ih hrest⟩

/-- A path that leads somewhere leads there when the tree has grown. -/
lemma Grows.follow_steps (h : tree.Grows tree')
    (hpath : tree.follow (tree.start path) (steps path) = .ok base) :
    tree'.follow (tree'.start path) (steps path) = .ok base := by
  have hstart : tree'.start path = tree.start path := by rw [start, start, h.current]
  rw [hstart]
  exact h.follow hpath

/-! ### Operations -/

/-- The answer or fault of an action on a tree, and the tree that it leaves behind. -/
def Action.apply {α : Type} (action : Action α) (tree : FileTree) :
    Except OutputFault α × FileTree :=
  action.run.run tree

lemma apply_bind {α β : Type} (action : Action α) (next : α → Action β) (tree : FileTree) :
    Action.apply (action >>= next) tree =
      match action.apply tree with
      | (.ok a, tree') => Action.apply (next a) tree'
      | (.error fault, tree') => (.error fault, tree') := by
  simp only [Action.apply, ExceptT.run_bind, StateT.run_bind]
  rcases action.run.run tree with ⟨fault | a, tree'⟩ <;> rfl

lemma apply_get {α : Type} (next : FileTree → Action α) (tree : FileTree) :
    Action.apply (get >>= next) tree = Action.apply (next tree) tree := rfl

/-- Finding a place leaves the tree as it is. -/
lemma place_apply (path : String) (tree : FileTree) :
    (∃ fault, fault.isOfFiles = true ∧ (place path).apply tree = (.error fault, tree)) ∨
      ∃ location, tree.target (tree.start path) (steps path) = .ok location ∧
        (place path).apply tree = (.ok location, tree) := by
  by_cases hend : path.toList.contains '\x00' = true
  · left
    refine ⟨.endedPath, rfl, ?_⟩
    simp only [place, checkPath, hend, if_true]
    rfl
  · have happly : (place path).apply tree =
        Action.apply (attempt (tree.target (tree.start path) (steps path))) tree := by
      simp only [place, checkPath, hend]
      rfl
    rw [happly]
    cases htarget : tree.target (tree.start path) (steps path) with
    | error fault => exact Or.inl ⟨.file fault, rfl, rfl⟩
    | ok location => exact Or.inr ⟨location, rfl, rfl⟩

/-- A new directory stands where nothing was. -/
lemma createDirectory_apply (path : String) (tree : FileTree) :
    (∃ fault, fault.isOfFiles = true ∧
      (createDirectory path).apply tree = (.error fault, tree)) ∨
      ∃ location, tree.target (tree.start path) (steps path) = .ok location ∧
        tree.node? location = none ∧
        (createDirectory path).apply tree = (.ok (), tree.put location .directory) := by
  rw [createDirectory, apply_bind]
  rcases place_apply path tree with ⟨fault, hfault, hplace⟩ | ⟨location, htarget, hplace⟩
  · rw [hplace]
    exact Or.inl ⟨fault, hfault, rfl⟩
  · rw [hplace]
    cases hnode : tree.node? location with
    | some node =>
      left
      refine ⟨.file .alreadyExists, rfl, ?_⟩
      simp only [apply_get, hnode]
      rfl
    | none =>
      right
      refine ⟨location, htarget, hnode, ?_⟩
      simp only [apply_get, hnode]
      rfl

/-- A new file stands where no directory was. -/
lemma createFile_apply (path : String) (tree : FileTree) :
    (∃ fault, fault.isOfFiles = true ∧ (createFile path).apply tree = (.error fault, tree)) ∨
      ∃ location, tree.target (tree.start path) (steps path) = .ok location ∧
        tree.node? location ≠ some .directory ∧
        (createFile path).apply tree =
          (.ok location, tree.put location (.file ByteArray.empty)) := by
  rw [createFile, apply_bind]
  rcases place_apply path tree with ⟨fault, hfault, hplace⟩ | ⟨location, htarget, hplace⟩
  · rw [hplace]
    exact Or.inl ⟨fault, hfault, rfl⟩
  · rw [hplace]
    by_cases hnode : tree.node? location = some .directory
    · left
      refine ⟨.file .isADirectory, rfl, ?_⟩
      simp only [apply_get, hnode]
      rfl
    · right
      refine ⟨location, htarget, hnode, ?_⟩
      simp only [apply_get]
      rfl

/-- What is written to a file goes behind what is there. -/
lemma write_apply {contents : ByteArray} (h : tree.node? location = some (.file contents))
    (bytes : ByteArray) :
    (write location bytes).apply tree =
      (.ok location, tree.put location (.file (contents ++ bytes))) := by
  simp only [write, apply_get, h]
  rfl

end FileTree

end ParcelCompanion
