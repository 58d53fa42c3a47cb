import ParcelCompanion.Output.Directory
import ParcelCompanion.Proofs.Companion.Name
import ParcelCompanion.Proofs.Output.Paving

/-!
# Putting units into a directory

The path of a unit is below the root by one name for each segment of the unit's name, when this name
is plain, as all names are that are made of identifiers.  A unit that is put there is refused because
its name is taken, or the file system refuses something, or there is a new file with the text of the
unit.
-/

namespace ParcelCompanion.DirectoryLog

open FileTree

variable {root name : String} {names : List String} {tree tree' : FileTree} {base : Location}
  {log log' : DirectoryLog}

/-! ### Paths of units -/

/-- The names of the entries that lead from the root to the file of a unit: one for each segment of
the name, where the last gets the ending of source files. -/
def entryNames (name : String) : List String :=
  (Dotted.segments name).dropLast ++ [Dotted.simple name ++ ".java"]

lemma segments_eq_concat (name : String) :
    Dotted.segments name = (Dotted.segments name).dropLast ++ [Dotted.simple name] := by
  cases houter : Dotted.outer? name with
  | none => rw [Dotted.segments_of_outer_eq_none houter]; rfl
  | some outer => rw [Dotted.segments_of_outer_eq_some houter, List.dropLast_concat]

lemma length_entryNames (name : String) :
    (entryNames name).length = (Dotted.segments name).length := by
  rw [segments_eq_concat name]
  simp [entryNames]

lemma ne_entryNames_of_above (h : names <+: (Dotted.segments name).dropLast) :
    names ≠ entryNames name := by
  rintro rfl
  have hlength := h.length_le
  rw [entryNames, List.length_append, List.length_singleton] at hlength
  omega

/-- Different names lead to different files. -/
lemma entryNames_injective : Function.Injective entryNames := by
  intro name other h
  obtain ⟨hfront, hlast⟩ := List.append_inj' h rfl
  have hsimple : Dotted.simple name = Dotted.simple other := by
    have htext := congrArg String.toList (List.singleton_inj.mp hlast)
    rw [String.toList_append, String.toList_append] at htext
    exact String.toList_injective (List.append_cancel_right htext)
  apply Dotted.segments_injective
  rw [segments_eq_concat name, segments_eq_concat other, hfront, hsimple]

/-- What is joined to the root for the path of a unit: the segments of its package, unless they are
empty, and its class name with the ending of source files. -/
def parts (name : String) : List String :=
  (Dotted.segments name).dropLast.filter (! ·.isEmpty) ++ [Dotted.simple name ++ ".java"]

lemma pathFor_eq_foldl (root name : String) :
    pathFor root name = (parts name).foldl Path.join root := by
  rw [pathFor, parts, List.foldl_concat]
  cases houter : Dotted.outer? name with
  | none =>
    rw [Dotted.segments_of_outer_eq_none houter]
    rfl
  | some outer =>
    rw [Dotted.segments_of_outer_eq_some houter, List.dropLast_concat]
    rfl

lemma parts_eq (h : "" ∉ (Dotted.segments name).dropLast) : parts name = entryNames name := by
  have hfilter : (Dotted.segments name).dropLast.filter (! ·.isEmpty) =
      (Dotted.segments name).dropLast := by
    refine List.filter_eq_self.mpr fun segment hsegment => ?_
    have hne : segment ≠ "" := by
      rintro rfl
      exact h hsegment
    simpa using hne
  rw [parts, hfilter, entryNames]

/-- A component that has no dots is the name of an entry. -/
lemma isEntryName_of_no_dot {entry : String} (h : Path.IsComponent entry)
    (hdot : '.' ∉ entry.toList) : IsEntryName entry where
  toIsComponent := h
  ne_dot := by
    rintro rfl
    exact hdot (by decide)
  ne_dots := by
    rintro rfl
    exact hdot (by decide)

/-- A text without slashes is the name of an entry when it has the ending of source files behind
it. -/
lemma isEntryName_java (h : '/' ∉ name.toList) : IsEntryName (name ++ ".java") := by
  have hlength : 5 ≤ (name ++ ".java").length := by
    rw [String.length_append]
    exact Nat.le_add_left _ _
  have hslash : '/' ∉ (name ++ ".java").toList := by
    rw [String.toList_append, List.mem_append, not_or]
    exact ⟨h, by decide⟩
  refine ⟨⟨fun hempty => ?_, hslash⟩, fun hdot => ?_, fun hdots => ?_⟩
  · exact absurd (hempty ▸ hlength) (by decide)
  · exact absurd (hdot ▸ hlength) (by decide)
  · exact absurd (hdots ▸ hlength) (by decide)

/-- The segments of the package are components of paths, and the class name has no slashes. -/
structure IsPlain (name : String) : Prop where
  package : ∀ segment ∈ (Dotted.segments name).dropLast, Path.IsComponent segment
  simple : '/' ∉ (Dotted.simple name).toList

lemma isPlain_of_isQualified (h : Companion.IsQualified name) : IsPlain name := by
  rw [Companion.IsQualified, segments_eq_concat name] at h
  refine ⟨fun segment hsegment => ?_, ?_⟩
  · exact Companion.isComponent_of_isIdentifier (h segment (List.mem_append_left _ hsegment))
  · have hsimple := h _ (List.mem_append_right _ (List.mem_singleton_self _))
    exact (Companion.isComponent_of_isIdentifier hsimple).no_slash

lemma isEntryName_of_mem (h : IsPlain name) : ∀ entry ∈ entryNames name, IsEntryName entry := by
  intro entry hentry
  rcases List.mem_append.mp hentry with hfront | hlast
  · exact isEntryName_of_no_dot (h.package entry hfront)
      (Dotted.no_dot_of_mem_segments (List.mem_of_mem_dropLast hfront))
  · rw [List.mem_singleton.mp hlast]
    exact isEntryName_java h.simple

lemma IsPlain.parts_eq (h : IsPlain name) : parts name = entryNames name :=
  DirectoryLog.parts_eq fun hmem => (h.package "" hmem).ne_empty rfl

/-- The path of a unit under a plain name has one component for each segment, below the root. -/
lemma isBelow_pathFor (root : String) (h : IsPlain name) :
    Path.IsBelow root (entryNames name) (pathFor root name) := by
  rw [pathFor_eq_foldl, h.parts_eq]
  exact Path.isBelow_foldl_join (fun entry hentry => (isEntryName_of_mem h entry hentry).1) root

lemma getLast?_splitOn_pathFor (root : String) (h : IsPlain name) :
    ((pathFor root name).toList.splitOn '/').getLast? =
      some (Dotted.simple name ++ ".java").toList := by
  rw [pathFor]
  exact Path.getLast?_splitOn_join (isEntryName_java h.simple).1

/-- Only the last component of a text gets the ending of source files. -/
lemma components_java (text : String) :
    ∃ front last, Path.components (text ++ ".java") = front ++ [last ++ ".java"] ∧
      (∀ entry ∈ front, entry ∈ Path.components text) ∧ '/' ∉ last.toList := by
  have hslash : '/' ∉ ".java".toList := by decide
  obtain ⟨front, last, hruns, hfront, hlast, -⟩ :=
    Path.runs_append hslash (by decide) text.toList
  refine ⟨front.map String.ofList, String.ofList last, ?_, ?_, by rwa [String.toList_ofList]⟩
  · rw [Path.components_eq, String.toList_append, hruns, List.map_append, List.map_singleton,
      String.ofList_append, String.ofList_toList]
  · intro entry hentry
    obtain ⟨run, hrun, rfl⟩ := List.mem_map.mp hentry
    rw [Path.components_eq]
    exact List.mem_map_of_mem (hfront run hrun)

/-- The path of a unit has a parent, since it ends in the name of a file. -/
lemma exists_parent?_pathFor (root name : String) :
    ∃ parent, Path.parent? (pathFor root name) = some parent := by
  have hfile : Path.components (Dotted.simple name ++ ".java") ≠ [] := by
    obtain ⟨front, last, hcomponents, -⟩ := components_java (Dotted.simple name)
    rw [hcomponents]
    exact List.append_ne_nil_of_right_ne_nil _ (List.cons_ne_nil _ _)
  have hpath : Path.components (pathFor root name) ≠ [] := by
    rw [pathFor]
    cases habsolute : Path.isAbsolute (Dotted.simple name ++ ".java") with
    | true => rwa [Path.join_of_isAbsolute habsolute]
    | false =>
      rw [Path.components_join_of_relative habsolute]
      exact List.append_ne_nil_of_right_ne_nil _ hfile
  exact Option.ne_none_iff_exists'.mp fun hnone =>
    hpath (Path.components_of_parent?_eq_none hnone)

/-! ### Putting a unit -/

/-- The answer or fault of an action of the sink on a log and a tree, and what it leaves behind. -/
def apply {α : Type} (action : ExceptT OutputFault (StateT DirectoryLog (StateM FileTree)) α)
    (log : DirectoryLog) (tree : FileTree) : (Except OutputFault α × DirectoryLog) × FileTree :=
  (action.run.run log).run tree

lemma apply_bind {α β : Type}
    (action : ExceptT OutputFault (StateT DirectoryLog (StateM FileTree)) α)
    (next : α → ExceptT OutputFault (StateT DirectoryLog (StateM FileTree)) β)
    (log : DirectoryLog) (tree : FileTree) :
    apply (action >>= next) log tree =
      match apply action log tree with
      | ((.ok a, log), tree) => apply (next a) log tree
      | ((.error fault, log), tree) => ((.error fault, log), tree) := by
  simp only [apply, ExceptT.run_bind, StateT.run_bind]
  rcases (action.run.run log).run tree with ⟨⟨fault | a, log'⟩, tree'⟩ <;> rfl

lemma apply_onFiles {α : Type} (action : Action α) (log : DirectoryLog) (tree : FileTree) :
    apply (onFiles action) log tree = (((action.apply tree).1, log), (action.apply tree).2) := rfl

/-- The log after the file for a name was opened. -/
def opened (log : DirectoryLog) (root name : String) : DirectoryLog where
  taken := log.taken.insert name
  written := log.written.push (pathFor root name)

lemma create_of_taken (hname : log.taken.contains name = true) (root : String)
    (tree : FileTree) :
    apply (create fileSystem root name) log tree = ((.error (.recreated name), log), tree) := by
  have hget : apply (get : ExceptT OutputFault (StateT DirectoryLog (StateM FileTree)) DirectoryLog)
      log tree = ((.ok log, log), tree) := rfl
  rw [create, apply_bind, hget]
  dsimp only
  rw [hname]
  rfl

/-- A file for a name that is not taken is opened after the directories for it were created. -/
lemma create_of_not_taken {parent : String} (hname : log.taken.contains name = false)
    (hparent : Path.parent? (pathFor root name) = some parent) (tree : FileTree) :
    apply (create fileSystem root name) log tree =
      match Action.apply (fileSystem.createDirectories parent) tree with
      | (.error fault, tree) => ((.error fault, log), tree)
      | (.ok (), tree) =>
        match (createFile (pathFor root name)).apply tree with
        | (.error fault, tree) => ((.error fault, log), tree)
        | (.ok location, tree) => ((.ok location, log.opened root name), tree) := by
  have hget : apply (get : ExceptT OutputFault (StateT DirectoryLog (StateM FileTree)) DirectoryLog)
      log tree = ((.ok log, log), tree) := rfl
  rw [create, apply_bind, hget]
  dsimp only
  rw [hname, hparent]
  simp only [Bool.false_eq_true, if_false, Option.forM, apply_bind, apply_onFiles]
  rcases Action.apply (fileSystem.createDirectories parent) tree with ⟨fault | _, tree'⟩
  · rfl
  · have hfiles : fileSystem.createFile (pathFor root name) = createFile (pathFor root name) := rfl
    dsimp only
    rw [hfiles]
    rcases (createFile (pathFor root name)).apply tree' with ⟨fault | location, tree''⟩ <;> rfl

/-- A unit is put by opening its file and writing to it. -/
lemma put_apply (origin : DeclId) (text : String) (log : DirectoryLog) (tree : FileTree) :
    apply ((sink fileSystem root).put name origin text) log tree =
      match apply (create fileSystem root name) log tree with
      | ((.error fault, log), tree) => ((.error fault, log), tree)
      | ((.ok location, log), tree) =>
        match (FileTree.write location text.toUTF8).apply tree with
        | (.error fault, tree) => ((.error fault, log), tree)
        | (.ok _, tree) => ((.ok (), log), tree) := by
  have hcreate : (sink fileSystem root).create name origin = create fileSystem root name := rfl
  rw [Sink.put, apply_bind, hcreate]
  rcases apply (create fileSystem root name) log tree with ⟨⟨fault | location, log'⟩, tree'⟩
  · rfl
  · have hwrite : (sink fileSystem root).write location text.toUTF8 =
        onFiles (FileTree.write location text.toUTF8) := rfl
    dsimp only
    rw [apply_bind, hwrite, apply_onFiles]
    rcases (FileTree.write location text.toUTF8).apply tree' with ⟨fault | written, tree''⟩ <;> rfl

/-- What becomes of putting a unit: its name is taken, or its file is put after the directories for
it were created, or the file system refuses something on the way. -/
lemma put_steps (root name : String) (log : DirectoryLog) (origin : DeclId) (text : String)
    (tree : FileTree) :
    (log.taken.contains name = true ∧
      apply ((sink fileSystem root).put name origin text) log tree =
        ((.error (.recreated name), log), tree)) ∨
    log.taken.contains name = false ∧ ∃ parent result tree₁,
      Path.parent? (pathFor root name) = some parent ∧
      Action.apply (fileSystem.createDirectories parent) tree = (result, tree₁) ∧
      ((∃ fault, fault.isOfFiles = true ∧
        apply ((sink fileSystem root).put name origin text) log tree =
          ((.error fault, log), tree₁)) ∨
      result = .ok () ∧ ∃ location tree₂,
        tree₁.Writes (pathFor root name) location text.toUTF8 tree₂ ∧
        apply ((sink fileSystem root).put name origin text) log tree =
          ((.ok (), log.opened root name), tree₂)) := by
  rw [put_apply]
  cases htaken : log.taken.contains name with
  | true =>
    rw [create_of_taken htaken]
    exact Or.inl ⟨rfl, rfl⟩
  | false =>
    obtain ⟨parent, hparent⟩ := exists_parent?_pathFor root name
    rw [create_of_not_taken htaken hparent]
    rcases hdirectories : Action.apply (fileSystem.createDirectories parent) tree with
      ⟨fault | _, tree₁⟩
    · have hfault := createDirectories_fault hdirectories
      exact Or.inr ⟨rfl, parent, _, tree₁, hparent, hdirectories, Or.inl ⟨fault, hfault, rfl⟩⟩
    · refine Or.inr ⟨rfl, parent, _, tree₁, hparent, hdirectories, ?_⟩
      dsimp only
      rcases createFile_apply (pathFor root name) tree₁ with
        ⟨fault, hfault, hcreate⟩ | ⟨location, htarget, hlast, hcreate⟩
      · rw [hcreate]
        exact Or.inl ⟨fault, hfault, rfl⟩
      · rw [hcreate]
        have hne : location ≠ [] := by
          rintro rfl
          exact hlast (node?_nil tree₁)
        have hempty : (tree₁.put location (.file ByteArray.empty)).node? location =
            some (.file ByteArray.empty) := by
          rw [node?_put hne, if_pos rfl]
        have hwrites : tree₁.Writes (pathFor root name) location text.toUTF8
            ((tree₁.put location (.file ByteArray.empty)).put location (.file text.toUTF8)) := by
          refine ⟨rfl, htarget, hlast, fun other => ?_⟩
          rw [node?_put hne, node?_put hne]
          split <;> rfl
        dsimp only
        rw [write_apply hempty, ByteArray.empty_append]
        exact Or.inr ⟨rfl, location, _, hwrites, rfl⟩

/-- A unit is refused for its name, or for something that the file system refuses, or it is put into
a new file. -/
theorem put_cases (hroot : tree.follow (tree.start root) (steps root) = .ok base)
    (hbase : tree.node? base = some .directory) (hname : IsPlain name)
    (log : DirectoryLog) (origin : DeclId) (text : String) :
    (log.taken.contains name = true ∧
      apply ((sink fileSystem root).put name origin text) log tree =
        ((.error (.recreated name), log), tree)) ∨
    log.taken.contains name = false ∧
      ((∃ fault log' tree', fault.isOfFiles = true ∧
        apply ((sink fileSystem root).put name origin text) log tree =
          ((.error fault, log'), tree')) ∨
      ∃ tree', tree.Receives base (entryNames name) text.toUTF8 tree' ∧
        apply ((sink fileSystem root).put name origin text) log tree =
          ((.ok (), log.opened root name), tree')) := by
  have hbelow := isBelow_pathFor root hname
  have hentries := isEntryName_of_mem hname
  have hne : entryNames name ≠ [] := by simp [entryNames]
  refine (put_steps root name log origin text tree).imp_right ?_
  rintro ⟨htaken, parent, result, tree₁, hparent, hdirectories, hcases⟩
  refine ⟨htaken, ?_⟩
  rcases hcases with ⟨fault, hfault, hput⟩ | ⟨rfl, location, tree₂, hwrites, hput⟩
  · exact Or.inl ⟨fault, log, tree₁, hfault, hput⟩
  · have hparents := fun entry hentry => hentries entry (List.mem_of_mem_dropLast hentry)
    have hpaves := createDirectories_paves hroot hbase (hbelow.of_parent? hne hparent) hparents
      hdirectories
    have hfollow := hpaves.grows.follow_steps hroot
    obtain ⟨hleads, rfl⟩ :=
      (target_eq_ok_iff_of_isBelow hfollow hbelow hentries).mp hwrites.target
    exact Or.inr ⟨tree₂, hpaves.receives hne hleads hwrites, hput⟩

end ParcelCompanion.DirectoryLog
