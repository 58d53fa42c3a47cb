import ParcelCompanion.Proofs.Output.FileTree

/-!
# Creating directories

A path may ask for several directories below one that exists.  Creating them paves the way: there is
a directory at every place on it, in places where nothing or a directory was, and everything else is
as before.  A file that is put at the end of a paved way is the only other change.
-/

namespace ParcelCompanion.FileTree

variable {tree tree' tree'' : FileTree} {base : Location} {names front : List String}
  {root path parent : String}

/-! ### Ways -/

/-- There are directories along names below a base, in places where no file was, and nothing else is
new. -/
structure Paves (tree : FileTree) (base : Location) (names : List String) (tree' : FileTree) :
    Prop where
  current : tree'.current = tree.current
  free : ∀ front, front <+: names → ∀ contents, tree.node? (base ++ front) ≠ some (.file contents)
  directory : ∀ front, front <+: names → tree'.node? (base ++ front) = some .directory
  others : ∀ location, (∀ front, front <+: names → location ≠ base ++ front) →
    tree'.node? location = tree.node? location

lemma Paves.grows (h : tree.Paves base names tree') : tree.Grows tree' := by
  have hnode : ∀ location, tree'.node? location = some .directory ∨
      tree'.node? location = tree.node? location := by
    intro location
    by_cases hway : ∃ front, front <+: names ∧ location = base ++ front
    · obtain ⟨front, hfront, rfl⟩ := hway
      exact Or.inl (h.directory front hfront)
    · exact Or.inr (h.others location fun front hfront heq => hway ⟨front, hfront, heq⟩)
  refine ⟨h.current, fun location hlocation => ?_, fun location hlocation => ?_⟩
  · rcases hnode location with hnode | hnode
    · exact hnode
    · rw [hnode, hlocation]
  · rcases hnode location with hnode | hnode
    · rw [hnode]
      rfl
    · rwa [hnode]

/-- A way can be paved in two steps. -/
lemma Paves.trans (h : tree.Paves base front tree') (h' : tree'.Paves base names tree'')
    (hfront : front <+: names) : tree.Paves base names tree'' := by
  refine ⟨h'.current.trans h.current, fun other hother contents hfile => ?_, h'.directory,
    fun location hlocation => ?_⟩
  · by_cases hway : other <+: front
    · exact h.free other hway contents hfile
    · refine h'.free other hother contents ?_
      rw [h.others _ fun front' hfront' heq =>
        hway (by rwa [List.append_cancel_left heq]), hfile]
  · rw [h'.others location hlocation,
      h.others location fun other hother => hlocation other (hother.trans hfront)]

/-- A way that is there needs no paving. -/
lemma Leads.paves_self (h : tree.Leads base names)
    (hlast : tree.node? (base ++ names) = some .directory) : tree.Paves base names tree := by
  have hdirectory : ∀ front, front <+: names → tree.node? (base ++ front) = some .directory := by
    intro front hfront
    by_cases hnames : front = names
    · rwa [hnames]
    · exact h.directory front hfront hnames
  exact ⟨rfl, fun front hfront contents hfile => by simp [hdirectory front hfront] at hfile,
    hdirectory, fun _ _ => rfl⟩

/-- A way that lacks its last place is paved by a directory there. -/
lemma Leads.paves_put (h : tree.Leads base names) (hlast : tree.node? (base ++ names) = none) :
    tree.Paves base names (tree.put (base ++ names) .directory) := by
  have hne : base ++ names ≠ [] := by
    intro hnil
    simp [hnil] at hlast
  refine ⟨rfl, fun front hfront contents hfile => ?_, fun front hfront => ?_,
    fun location hway => ?_⟩
  · by_cases hnames : front = names
    · simp [hnames, hlast] at hfile
    · simp [h.directory front hfront hnames] at hfile
  · rw [node?_put hne]
    by_cases hnames : front = names
    · rw [hnames, if_pos rfl]
    · rw [if_neg (by simpa using hnames), h.directory front hfront hnames]
  · rw [node?_put hne, if_neg (hway names List.prefix_rfl)]

/-! ### Files -/

/-- A file is put at the location that a path leads to, where no directory is. -/
structure Writes (tree : FileTree) (path : String) (location : Location) (contents : ByteArray)
    (tree' : FileTree) : Prop where
  current : tree'.current = tree.current
  target : tree.target (tree.start path) (steps path) = .ok location
  notDirectory : tree.node? location ≠ some .directory
  node : ∀ other, tree'.node? other =
    if other = location then some (.file contents) else tree.node? other

/-- There is a file at the end of names below a base, with directories on the way to it, in places
where no file was, and nothing else is new. -/
structure Receives (tree : FileTree) (base : Location) (names : List String)
    (contents : ByteArray) (tree' : FileTree) : Prop where
  current : tree'.current = tree.current
  leads : tree'.Leads base names
  file : tree'.node? (base ++ names) = some (.file contents)
  notDirectory : tree.node? (base ++ names) ≠ some .directory
  free : ∀ front, front <+: names → front ≠ names →
    ∀ contents, tree.node? (base ++ front) ≠ some (.file contents)
  others : ∀ location, (∀ front, front <+: names → location ≠ base ++ front) →
    tree'.node? location = tree.node? location

lemma Receives.grows {contents : ByteArray} (h : tree.Receives base names contents tree') :
    tree.Grows tree' := by
  have hnode : ∀ location, tree'.node? location = some .directory ∨
      (tree.node? location ≠ some .directory ∧ (tree'.node? location).isSome) ∨
      tree'.node? location = tree.node? location := by
    intro location
    by_cases hway : ∃ front, front <+: names ∧ location = base ++ front
    · obtain ⟨front, hfront, rfl⟩ := hway
      by_cases hnames : front = names
      · subst hnames
        exact Or.inr (Or.inl ⟨h.notDirectory, by rw [h.file]; rfl⟩)
      · exact Or.inl (h.leads.directory front hfront hnames)
    · exact Or.inr (Or.inr (h.others location fun front hfront heq => hway ⟨front, hfront, heq⟩))
  refine ⟨h.current, fun location hlocation => ?_, fun location hlocation => ?_⟩
  · rcases hnode location with hnode | ⟨hnode, -⟩ | hnode
    · exact hnode
    · exact absurd hlocation hnode
    · rw [hnode, hlocation]
  · rcases hnode location with hnode | ⟨-, hnode⟩ | hnode
    · rw [hnode]
      rfl
    · exact hnode
    · rwa [hnode]

/-- When the directories above a file have been made, writing the file leaves a tree that has
received it at the end of its way. -/
lemma Paves.receives {contents : ByteArray} (h : tree.Paves base names.dropLast tree')
    (hnames : names ≠ []) (hleads : tree'.Leads base names)
    (hwrites : tree'.Writes path (base ++ names) contents tree'') :
    tree.Receives base names contents tree'' := by
  have hproper : ∀ front, front <+: names → front ≠ names → front <+: names.dropLast := by
    intro front hfront hne
    have hconcat := List.dropLast_append_getLast hnames
    rw [← hconcat] at hfront
    rcases List.prefix_concat_iff.mp hfront with heq | hfront
    · exact absurd (heq.trans hconcat) hne
    · exact hfront
  refine ⟨hwrites.current.trans h.current, ⟨fun front hfront hne => ?_, hleads.short⟩,
    by rw [hwrites.node, if_pos rfl], fun hdirectory => hwrites.notDirectory ?_,
    fun front hfront hne => h.free front (hproper front hfront hne), fun location hway => ?_⟩
  · rw [hwrites.node, if_neg (by simpa using hne)]
    exact hleads.directory front hfront hne
  · exact h.grows.directory _ hdirectory
  · rw [hwrites.node, if_neg (hway names List.prefix_rfl)]
    exact h.others location fun front hfront =>
      hway front (hfront.trans (List.dropLast_prefix names))

/-! ### One directory -/

/-- An action that goes on by the answer or the fault of another one starts from the tree that the
other one leaves. -/
lemma apply_handle {α β : Type} (action : Action α)
    (next : Except OutputFault α → StateM FileTree (Except OutputFault β)) (tree : FileTree) :
    Action.apply (ExceptT.mk (action.run >>= next)) tree =
      (next (action.apply tree).1).run (action.apply tree).2 := rfl

lemma ensureDirectory_apply (path : String) (tree : FileTree) :
    (∃ fault, fault.isOfFiles = true ∧ ¬ tree.isDirectoryAt path = true ∧
      Action.apply (fileSystem.ensureDirectory path) tree = (.error fault, tree)) ∨
    (tree.isDirectoryAt path = true ∧
      Action.apply (fileSystem.ensureDirectory path) tree = (.ok (), tree)) ∨
    ∃ location, tree.target (tree.start path) (steps path) = .ok location ∧
      tree.node? location = none ∧
      Action.apply (fileSystem.ensureDirectory path) tree =
        (.ok (), tree.put location .directory) := by
  have hcreate := createDirectory_apply path tree
  rw [FileSystem.ensureDirectory, apply_handle]
  rcases hcreate with ⟨fault, hfault, hcreate⟩ | ⟨location, htarget, hnode, hcreate⟩
  · rw [show Action.apply (fileSystem.createDirectory path) tree = _ from hcreate]
    by_cases hdirectory : tree.isDirectoryAt path = true
    · refine Or.inr (Or.inl ⟨hdirectory, ?_⟩)
      simp [fileSystem, hdirectory]
      rfl
    · refine Or.inl ⟨fault, hfault, hdirectory, ?_⟩
      simp [fileSystem, hdirectory]
      rfl
  · rw [show Action.apply (fileSystem.createDirectory path) tree = _ from hcreate]
    exact Or.inr (Or.inr ⟨location, htarget, hnode, rfl⟩)

lemma ensureDirectory_fault {fault : OutputFault}
    (h : Action.apply (fileSystem.ensureDirectory path) tree = (.error fault, tree')) :
    tree' = tree ∧ fault.isOfFiles = true ∧ ¬ tree.isDirectoryAt path = true := by
  rcases ensureDirectory_apply path tree with ⟨fault', hfault, hmissing, hensure⟩ |
      ⟨-, hensure⟩ | ⟨location, -, -, hensure⟩
  · obtain ⟨hfault', htree⟩ := Prod.mk.inj (hensure.symm.trans h)
    exact ⟨htree.symm, Except.error.inj hfault' ▸ hfault, hmissing⟩
  · exact nomatch congrArg Prod.fst (hensure.symm.trans h)
  · exact nomatch congrArg Prod.fst (hensure.symm.trans h)

/-- A directory that is there afterwards, below a directory that is there, paves the way to it. -/
lemma ensureDirectory_paves (hroot : tree.follow (tree.start root) (steps root) = .ok base)
    (hpath : Path.IsBelow root names path) (hnames : ∀ name ∈ names, IsEntryName name)
    (h : Action.apply (fileSystem.ensureDirectory path) tree = (.ok (), tree')) :
    tree.Paves base names tree' := by
  rcases ensureDirectory_apply path tree with ⟨fault', -, -, hensure⟩ | ⟨hthere, hensure⟩ |
      ⟨location, htarget, hnone, hensure⟩
  · exact nomatch congrArg Prod.fst (hensure.symm.trans h)
  · obtain rfl : tree = tree' := congrArg Prod.snd (hensure.symm.trans h)
    obtain ⟨hleads, hlast⟩ :=
      (nodeAt?_eq_some_iff_of_isBelow hroot hpath hnames).mp (isDirectoryAt_iff.mp hthere)
    exact hleads.paves_self hlast
  · obtain rfl : tree.put location .directory = tree' := congrArg Prod.snd (hensure.symm.trans h)
    obtain ⟨hleads, rfl⟩ := (target_eq_ok_iff_of_isBelow hroot hpath hnames).mp htarget
    exact hleads.paves_put hnone

/-! ### All directories -/

/-- What becomes of creating directories: nothing for the empty path, the outcome of creating the
last directory, or the outcome of creating it behind the others. -/
lemma createDirectories_cases {result : Except OutputFault Unit}
    (h : Action.apply (fileSystem.createDirectories path) tree = (result, tree')) :
    path = "" ∧ result = .ok () ∧ tree' = tree ∨
    Action.apply (fileSystem.ensureDirectory path) tree = (result, tree') ∨
    ∃ parent, Path.parent? path = some parent ∧
      Action.apply (fileSystem.ensureDirectory path) tree = (.error (.file .notFound), tree) ∧
      ((∃ fault, result = .error fault ∧
        Action.apply (fileSystem.createDirectories parent) tree = (.error fault, tree')) ∨
      ∃ tree'', Action.apply (fileSystem.createDirectories parent) tree = (.ok (), tree'') ∧
        Action.apply (fileSystem.ensureDirectory path) tree'' = (result, tree')) := by
  unfold FileSystem.createDirectories at h
  by_cases hempty : path.isEmpty = true
  · simp only [hempty, if_true] at h
    obtain ⟨hresult, htree⟩ := Prod.mk.inj h
    exact Or.inl ⟨String.isEmpty_iff.mp hempty, hresult.symm, htree.symm⟩
  · right
    simp only [hempty, Bool.false_eq_true, if_false, apply_handle] at h
    rcases hensure : Action.apply (fileSystem.ensureDirectory path) tree with ⟨first, tree₁⟩
    rw [hensure] at h
    dsimp only at h
    split at h
    · obtain ⟨rfl, -⟩ := ensureDirectory_fault hensure
      split at h
      · exact Or.inl h
      · next parent hparent =>
        refine Or.inr ⟨parent, hparent, rfl, ?_⟩
        have hnext := (apply_handle (fileSystem.createDirectories parent) _ tree₁).symm.trans h
        rcases hcreate : Action.apply (fileSystem.createDirectories parent) tree₁ with
          ⟨fault | _, tree''⟩
        · rw [hcreate] at hnext
          obtain ⟨hresult, htree⟩ := Prod.mk.inj hnext
          exact Or.inl ⟨fault, hresult.symm, by rw [← htree]⟩
        · rw [hcreate] at hnext
          exact Or.inr ⟨tree'', rfl, hnext⟩
    · exact Or.inl h

lemma createDirectories_fault {fault : OutputFault}
    (h : Action.apply (fileSystem.createDirectories path) tree = (.error fault, tree')) :
    fault.isOfFiles = true := by
  induction hlength : path.length using Nat.strong_induction_on generalizing path tree tree' with
  | _ n ih =>
    subst hlength
    rcases createDirectories_cases h with ⟨-, hresult, -⟩ | hensure |
        ⟨parent, hparent, -, ⟨fault', hresult, hcreate⟩ | ⟨tree'', -, hensure⟩⟩
    · exact nomatch hresult
    · exact (ensureDirectory_fault hensure).2.1
    · obtain rfl := Except.error.inj hresult
      exact ih _ (Path.length_lt_of_parent? hparent) hcreate rfl
    · exact (ensureDirectory_fault hensure).2.1

/-- Directories that were created pave the way to the path. -/
theorem createDirectories_paves (hroot : tree.follow (tree.start root) (steps root) = .ok base)
    (hbase : tree.node? base = some .directory) (hpath : Path.IsBelow root names path)
    (hnames : ∀ name ∈ names, IsEntryName name)
    (h : Action.apply (fileSystem.createDirectories path) tree = (.ok (), tree')) :
    tree.Paves base names tree' := by
  induction hlength : path.length using Nat.strong_induction_on
    generalizing path names tree' with
  | _ n ih =>
    subst hlength
    rcases createDirectories_cases h with ⟨rfl, -, rfl⟩ | hensure |
        ⟨parent, hparent, hfirst, ⟨fault', hresult, -⟩ | ⟨tree'', hcreate, hensure⟩⟩
    · obtain rfl : names = [] := by
        have hcomponents := hpath.components
        rw [show Path.components "" = [] from rfl] at hcomponents
        exact (List.append_eq_nil_iff.mp hcomponents.symm).2
      exact leads_nil.paves_self (by rwa [List.append_nil])
    · exact ensureDirectory_paves hroot hpath hnames hensure
    · exact nomatch hresult
    · have hnil : names ≠ [] := by
        rintro rfl
        have hthere := (nodeAt?_eq_some_iff_of_isBelow hroot hpath hnames).mpr
          ⟨leads_nil, by rwa [List.append_nil]⟩
        exact (ensureDirectory_fault hfirst).2.2 (isDirectoryAt_iff.mpr hthere)
      have hparents := fun name hname => hnames name (List.mem_of_mem_dropLast hname)
      have hpaves := ih _ (Path.length_lt_of_parent? hparent) (hpath.of_parent? hnil hparent)
        hparents hcreate rfl
      have hroot' := hpaves.grows.follow_steps hroot
      exact hpaves.trans (ensureDirectory_paves hroot' hpath hnames hensure)
        (List.dropLast_prefix names)

end ParcelCompanion.FileTree
