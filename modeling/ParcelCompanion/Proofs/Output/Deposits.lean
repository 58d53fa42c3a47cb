import ParcelCompanion.Output.Memory
import ParcelCompanion.Proofs.Output.Places

/-!
# Putting many units into a directory

Units of any names are put into one directory, below any root of any tree.  What goes wrong with one
of them leaves the files of the others alone, and what goes well changes the file at one place.  So
in the end every place that a unit was put to holds the text of the last such unit.

Under plain names no two units share a place, and each keeps its text.  The sink compares names,
however, and not places: names with gaps between their dots, or with slashes, may share a place, and
then one unit takes the file of another.
-/

namespace ParcelCompanion

namespace FileTree

variable {tree tree' tree'' : FileTree} {path : String} {location : Location} {node : FileNode}
  {contents : ByteArray}

/-! ### What stays -/

/-- Whatever is in the tree stays as it is. -/
structure Preserves (tree tree' : FileTree) : Prop where
  current : tree'.current = tree.current
  node : ∀ location node, tree.node? location = some node → tree'.node? location = some node

namespace Preserves

lemma refl (tree : FileTree) : tree.Preserves tree :=
  ⟨rfl, fun _ _ h => h⟩

lemma trans (h : tree.Preserves tree') (h' : tree'.Preserves tree'') : tree.Preserves tree'' :=
  ⟨h'.current.trans h.current, fun location node hnode =>
    h'.node location node (h.node location node hnode)⟩

lemma grows (h : tree.Preserves tree') : tree.Grows tree' := by
  refine ⟨h.current, fun location hdirectory => h.node location _ hdirectory, ?_⟩
  intro location hsome
  obtain ⟨node, hnode⟩ := Option.isSome_iff_exists.mp hsome
  rw [h.node location node hnode]
  rfl

end Preserves

lemma preserves_put (h : tree.node? location = none) (node : FileNode) :
    tree.Preserves (tree.put location node) := by
  have hne : location ≠ [] := by
    rintro rfl
    exact nomatch h
  refine ⟨rfl, fun other node' hother => ?_⟩
  have hdiffer : other ≠ location := by
    rintro rfl
    exact nomatch h.symm.trans hother
  rw [node?_put hne, if_neg hdiffer, hother]

lemma ensureDirectory_preserves {result : Except OutputFault Unit}
    (h : Action.apply (fileSystem.ensureDirectory path) tree = (result, tree')) :
    tree.Preserves tree' := by
  rcases ensureDirectory_apply path tree with ⟨fault, -, -, hensure⟩ | ⟨-, hensure⟩ |
      ⟨location, -, hnone, hensure⟩
  · obtain rfl : tree = tree' := congrArg Prod.snd (hensure.symm.trans h)
    exact .refl tree
  · obtain rfl : tree = tree' := congrArg Prod.snd (hensure.symm.trans h)
    exact .refl tree
  · obtain rfl : tree.put location .directory = tree' := congrArg Prod.snd (hensure.symm.trans h)
    exact preserves_put hnone _

/-- Creating directories changes nothing that is there, also when it fails. -/
lemma createDirectories_preserves {result : Except OutputFault Unit}
    (h : Action.apply (fileSystem.createDirectories path) tree = (result, tree')) :
    tree.Preserves tree' := by
  induction hlength : path.length using Nat.strong_induction_on
    generalizing path tree tree' result with
  | _ n ih =>
    subst hlength
    rcases createDirectories_cases h with ⟨-, -, rfl⟩ | hensure |
        ⟨parent, hparent, -, ⟨fault, -, hcreate⟩ | ⟨tree'', hcreate, hensure⟩⟩
    · exact .refl tree'
    · exact ensureDirectory_preserves hensure
    · exact ih _ (Path.length_lt_of_parent? hparent) hcreate rfl
    · have hparents := ih _ (Path.length_lt_of_parent? hparent) hcreate rfl
      exact hparents.trans (ensureDirectory_preserves hensure)

/-- There is a file at the location to which a path leads, and whatever is in the tree elsewhere
stays as it is. -/
structure Deposits (tree : FileTree) (path : String) (location : Location) (contents : ByteArray)
    (tree' : FileTree) : Prop where
  grows : tree.Grows tree'
  leads : tree'.follow (tree'.start path) (steps path) = .ok location
  file : tree'.node? location = some (.file contents)
  others : ∀ other node, other ≠ location → tree.node? other = some node →
    tree'.node? other = some node

lemma Writes.grows (h : tree.Writes path location contents tree') : tree.Grows tree' := by
  refine ⟨h.current, fun other hother => ?_, fun other hother => ?_⟩
  · have hdiffer : other ≠ location := by
      rintro rfl
      exact h.notDirectory hother
    rw [h.node, if_neg hdiffer, hother]
  · rw [h.node]
    split
    · rfl
    · exact hother

/-- When whatever was in a tree has been preserved, writing a file deposits it and nothing else. -/
lemma Preserves.deposits (h : tree.Preserves tree')
    (hwrites : tree'.Writes path location contents tree'') :
    tree.Deposits path location contents tree'' := by
  have hfile : tree''.node? location = some (.file contents) := by rw [hwrites.node, if_pos rfl]
  have hstart : tree''.start path = tree'.start path := by rw [start, start, hwrites.current]
  refine ⟨h.grows.trans hwrites.grows, ?_, hfile, fun other node hother hnode => ?_⟩
  · rw [hstart]
    exact hwrites.grows.follow_of_target hwrites.target (by rw [hfile]; rfl)
  · rw [hwrites.node, if_neg hother]
    exact h.node other node hnode

end FileTree

namespace DirectoryLog

open FileTree

variable {root name : String} {tree tree' : FileTree} {log log' : DirectoryLog}
  {base location : Location}

/-! ### One unit -/

/-- A unit that is not put leaves everything in the tree as it is.  A unit that is put had a name
that was not taken, and it has a file of its text. -/
lemma put_deposits (root : String) (unit : GeneratedUnit) (log : DirectoryLog) (tree : FileTree) :
    (∃ fault tree', tree.Preserves tree' ∧
      apply ((sink fileSystem root).put unit.name unit.origin unit.text) log tree =
        ((.error fault, log), tree')) ∨
    log.taken.contains unit.name = false ∧ ∃ location tree',
      tree.Deposits (pathFor root unit.name) location unit.text.toUTF8 tree' ∧
        apply ((sink fileSystem root).put unit.name unit.origin unit.text) log tree =
          ((.ok (), log.opened root unit.name), tree') := by
  rcases put_steps root unit.name log unit.origin unit.text tree with
    ⟨-, hput⟩ | ⟨htaken, parent, result, tree₁, -, hdirectories, hcases⟩
  · exact Or.inl ⟨_, tree, .refl tree, hput⟩
  · have hpreserves := createDirectories_preserves hdirectories
    rcases hcases with ⟨fault, -, hput⟩ | ⟨-, location, tree₂, hwrites, hput⟩
    · exact Or.inl ⟨fault, tree₁, hpreserves, hput⟩
    · exact Or.inr ⟨htaken, location, tree₂, hpreserves.deposits hwrites, hput⟩

/-! ### Many units -/

/-- Puts units one after the other, and notes what comes of each. -/
def putAll (root : String) (units : List GeneratedUnit) :
    StateT DirectoryLog (StateM FileTree) (List (GeneratedUnit × Except OutputFault Unit)) :=
  units.mapM fun unit => do
    return (unit, ← ((sink fileSystem root).put unit.name unit.origin unit.text).run)

/-- The units that were put. -/
def deposited (results : List (GeneratedUnit × Except OutputFault Unit)) : List GeneratedUnit :=
  (results.filter fun result => result.2.isOk).map Prod.fst

/-- The log and the tree tell of units and the locations that they were put to. -/
structure Accounts (root : String) (entries : List (GeneratedUnit × Location))
    (log : DirectoryLog) (tree : FileTree) : Prop where
  taken : ∀ name, log.taken.contains name = true ↔ ∃ entry ∈ entries, entry.1.name = name
  names : (entries.map fun entry => entry.1.name).Nodup
  written : log.written.toList = entries.map fun entry => pathFor root entry.1.name
  leads : ∀ entry ∈ entries, tree.follow (tree.start (pathFor root entry.1.name))
    (steps (pathFor root entry.1.name)) = .ok entry.2
  /-- The last unit that was put to a location has its text there. -/
  last : ∀ before entry after, entries = before ++ entry :: after →
    (∀ later ∈ after, later.2 ≠ entry.2) →
      tree.node? entry.2 = some (.file entry.1.text.toUTF8)

namespace Accounts

variable {entries : List (GeneratedUnit × Location)} {unit : GeneratedUnit}

lemma nil (root : String) (tree : FileTree) : Accounts root [] {} tree := by
  refine ⟨fun name => ?_, List.nodup_nil, rfl, nofun, fun before entry after h => ?_⟩
  · simp
  · exact absurd h.symm (List.append_ne_nil_of_right_ne_nil _ (List.cons_ne_nil _ _))

/-- The account stays true when nothing in the tree is changed. -/
lemma preserve (h : Accounts root entries log tree) (hpreserves : tree.Preserves tree') :
    Accounts root entries log tree' where
  taken := h.taken
  names := h.names
  written := h.written
  leads entry hentry := hpreserves.grows.follow_steps (h.leads entry hentry)
  last before entry after hsplit hlater :=
    hpreserves.node _ _ (h.last before entry after hsplit hlater)

/-- A unit under a new name is the last one at its location. -/
lemma deposit (h : Accounts root entries log tree)
    (hname : log.taken.contains unit.name = false)
    (hdeposits : tree.Deposits (pathFor root unit.name) location unit.text.toUTF8 tree') :
    Accounts root (entries ++ [(unit, location)]) (log.opened root unit.name) tree' where
  taken name := by
    rw [opened, Std.TreeSet.contains_insert, Bool.or_eq_true, h.taken]
    by_cases heq : unit.name = name
    · simp [heq]
    · simp [heq, or_and_right, exists_or]
  names := by
    have hnew : unit.name ∉ entries.map fun entry => entry.1.name := by
      intro hmem
      obtain ⟨entry, hentry, heq⟩ := List.mem_map.mp hmem
      have htaken := (h.taken unit.name).mpr ⟨entry, hentry, heq⟩
      exact nomatch hname.symm.trans htaken
    rw [List.map_append]
    refine List.nodup_append.mpr ⟨h.names, List.nodup_singleton _, ?_⟩
    rintro other hother _ hunit rfl
    obtain rfl := List.mem_singleton.mp hunit
    exact hnew hother
  written := by
    rw [opened, Array.toList_push, h.written, List.map_append]
    rfl
  leads entry hentry := by
    rcases List.mem_append.mp hentry with hold | hnew
    · exact hdeposits.grows.follow_steps (h.leads entry hold)
    · obtain rfl := List.mem_singleton.mp hnew
      exact hdeposits.leads
  last before entry after hsplit hlater := by
    rcases List.eq_nil_or_concat after with rfl | ⟨after, latest, rfl⟩
    · obtain ⟨-, hnew⟩ := List.append_inj' hsplit rfl
      obtain rfl := List.singleton_inj.mp hnew
      exact hdeposits.file
    · rw [List.concat_eq_append] at hsplit hlater
      rw [← List.cons_append, ← List.append_assoc] at hsplit
      obtain ⟨hold, hnew⟩ := List.append_inj' hsplit rfl
      obtain rfl := List.singleton_inj.mp hnew
      have hother : entry.2 ≠ location :=
        (hlater _ (List.mem_append_right _ (List.mem_singleton_self _))).symm
      exact hdeposits.others _ _ hother (h.last before entry after hold fun later hmem =>
        hlater later (List.mem_append_left _ hmem))

/-- The account stays true when one more unit is put, which is added to it unless putting it
fails. -/
lemma put (h : Accounts root entries log tree) (unit : GeneratedUnit) :
    ∃ result log' tree' more,
      apply ((sink fileSystem root).put unit.name unit.origin unit.text) log tree =
        ((result, log'), tree') ∧
      more.map Prod.fst = deposited [(unit, result)] ∧
      Accounts root (entries ++ more) log' tree' := by
  rcases put_deposits root unit log tree with ⟨fault, tree', hpreserves, hput⟩ |
    ⟨hname, location, tree', hdeposits, hput⟩
  · refine ⟨_, _, _, [], hput, rfl, ?_⟩
    rw [List.append_nil]
    exact h.preserve hpreserves
  · exact ⟨_, _, _, [(unit, location)], hput, rfl, h.deposit hname hdeposits⟩

/-- The account stays true along all units, and no unit is passed over. -/
lemma putAll (h : Accounts root entries log tree) (units : List GeneratedUnit) :
    ∃ results log' tree' more,
      ((DirectoryLog.putAll root units).run log).run tree = ((results, log'), tree') ∧
      results.map Prod.fst = units ∧ more.map Prod.fst = deposited results ∧
      Accounts root (entries ++ more) log' tree' := by
  induction units generalizing entries log tree with
  | nil => exact ⟨[], log, tree, [], rfl, rfl, rfl, (List.append_nil entries).symm ▸ h⟩
  | cons unit units ih =>
    obtain ⟨result, log₁, tree₁, first, hput, hfirst, haccounts⟩ := h.put unit
    obtain ⟨results, log', tree', more, hrun, hunits, hmore, haccounts'⟩ := ih haccounts
    have hcons : ((DirectoryLog.putAll root (unit :: units)).run log).run tree =
        (((unit, result) :: results, log'), tree') := by
      have hstep : ((DirectoryLog.putAll root (unit :: units)).run log).run tree =
          let step := apply ((sink fileSystem root).put unit.name unit.origin unit.text) log tree
          let rest := ((DirectoryLog.putAll root units).run step.1.2).run step.2
          (((unit, step.1.1) :: rest.1.1, rest.1.2), rest.2) := by
        rw [DirectoryLog.putAll, List.mapM_cons]
        rfl
      rw [hstep, hput]
      simp only [hrun]
    refine ⟨_, _, _, first ++ more, hcons, congrArg (unit :: ·) hunits, ?_, ?_⟩
    · have hdeposited : deposited ((unit, result) :: results) =
          deposited [(unit, result)] ++ deposited results := by
        rw [deposited, deposited, deposited, ← List.map_append, ← List.filter_append,
          List.singleton_append]
      rw [List.map_append, hfirst, hmore, hdeposited]
    · rwa [← List.append_assoc]

/-- The locations are the places of the names below where the root leads, if it leads anywhere. -/
lemma exists_base (h : Accounts root entries log tree) :
    ∃ base, (∀ location, tree.follow (tree.start root) (steps root) = .ok location →
        location = base) ∧
      ∀ entry ∈ entries, place base entry.1.name = entry.2 := by
  have hplaces : ∀ entry ∈ entries, _ := fun entry hentry => place_of_follow (h.leads entry hentry)
  cases hroot : tree.follow (tree.start root) (steps root) with
  | ok base =>
    refine ⟨base, fun location heq => (Except.ok.inj heq).symm, fun entry hentry => ?_⟩
    rcases hplaces entry hentry with ⟨base', hbase', hplace⟩ | heverywhere
    · obtain rfl := Except.ok.inj (hroot.symm.trans hbase')
      exact hplace
    · exact heverywhere base
  | error fault =>
    refine ⟨[], nofun, fun entry hentry => ?_⟩
    rcases hplaces entry hentry with ⟨base', hbase', -⟩ | heverywhere
    · exact nomatch hroot.symm.trans hbase'
    · exact heverywhere []

/-- Units with the places of their names. -/
def placed (base : Location) (units : List GeneratedUnit) : List (GeneratedUnit × Location) :=
  units.map fun unit => (unit, place base unit.name)

variable {units : List GeneratedUnit}

/-- The last of the units with a place has its text there. -/
lemma node?_place (h : Accounts root (placed base units) log tree)
    {before after : List GeneratedUnit} (hunits : units = before ++ unit :: after)
    (hlater : ∀ later ∈ after, place base later.name ≠ place base unit.name) :
    tree.node? (place base unit.name) = some (.file unit.text.toUTF8) := by
  refine h.last (placed base before) (unit, place base unit.name) (placed base after) ?_ ?_
  · rw [hunits, placed, List.map_append, List.map_cons]
    rfl
  · intro later hmem
    obtain ⟨other, hother, rfl⟩ := List.mem_map.mp hmem
    exact hlater other hother

/-- Units under plain names have different places. -/
lemma nodup_places (h : Accounts root (placed base units) log tree)
    (hplain : ∀ unit ∈ units, IsPlain unit.name) :
    (units.map fun unit => place base unit.name).Nodup := by
  have hnames : (units.map GeneratedUnit.name).Nodup := by
    have hnames := h.names
    rwa [placed, List.map_map] at hnames
  rw [List.Nodup, List.pairwise_map] at hnames ⊢
  refine hnames.imp_of_mem fun hunit hother hne hplace => hne ?_
  exact (hplain _ hunit).place_inj (hplain _ hother) hplace

/-- Every unit under a plain name has its text at its place. -/
lemma node?_of_plain (h : Accounts root (placed base units) log tree)
    (hplain : ∀ unit ∈ units, IsPlain unit.name) (hunit : unit ∈ units) :
    tree.node? (place base unit.name) = some (.file unit.text.toUTF8) := by
  obtain ⟨before, after, hunits⟩ := List.append_of_mem hunit
  have hplaces := h.nodup_places hplain
  rw [hunits, List.map_append, List.map_cons] at hplaces
  have hlater := (List.nodup_cons.mp (List.nodup_append.mp hplaces).2.1).1
  refine h.node?_place hunits fun later hmem heq => hlater ?_
  exact List.mem_map.mpr ⟨later, hmem, heq⟩

end Accounts

/-- Whatever units are put into a directory, those that are put have different names, and the log has
recorded their paths in order.  There is a file at the place of each, below the root unless some part
of its name is absolute, and it holds the text of the last unit that was put to this place.  If all
names are plain, the places are different, they are below the root, and each unit has its text
there. -/
theorem putAll_deposits (root : String) (tree : FileTree) (units : List GeneratedUnit) :
    ∃ results log tree', ((putAll root units).run {}).run tree = ((results, log), tree') ∧
      results.map Prod.fst = units ∧
      ((deposited results).map GeneratedUnit.name).Nodup ∧
      log.written.toList = (deposited results).map (fun unit => pathFor root unit.name) ∧
      ∃ base, (∀ location, tree'.follow (tree'.start root) (steps root) = .ok location →
          location = base) ∧
        (∀ unit ∈ deposited results,
          tree'.follow (tree'.start (pathFor root unit.name)) (steps (pathFor root unit.name)) =
              .ok (place base unit.name) ∧
            ((parts unit.name).any Path.isAbsolute = false → base <+: place base unit.name)) ∧
        (∀ before unit after, deposited results = before ++ unit :: after →
          (∀ later ∈ after, place base later.name ≠ place base unit.name) →
            tree'.node? (place base unit.name) = some (.file unit.text.toUTF8)) ∧
        ((∀ unit ∈ deposited results, IsPlain unit.name) →
          ((deposited results).map fun unit => place base unit.name).Nodup ∧
          ∀ unit ∈ deposited results,
            Path.IsBelow root (entryNames unit.name) (pathFor root unit.name) ∧
              place base unit.name = base ++ entryNames unit.name ∧
              tree'.node? (place base unit.name) = some (.file unit.text.toUTF8)) := by
  obtain ⟨results, log, tree', entries, hrun, hunits, hentries, haccounts⟩ :=
    (Accounts.nil root tree).putAll units
  rw [List.nil_append] at haccounts
  obtain ⟨base, hbase, hplaces⟩ := haccounts.exists_base
  have hplaced : entries = Accounts.placed base (deposited results) := by
    rw [← hentries, Accounts.placed, List.map_map]
    refine ((List.map_congr_left fun entry hentry => ?_).trans (List.map_id entries)).symm
    exact Prod.ext rfl (hplaces entry hentry)
  rw [hplaced] at haccounts
  have hnames : ((deposited results).map GeneratedUnit.name).Nodup := by
    have hnames := haccounts.names
    rwa [Accounts.placed, List.map_map] at hnames
  have hwritten : log.written.toList =
      (deposited results).map fun unit => pathFor root unit.name := by
    have hwritten := haccounts.written
    rwa [Accounts.placed, List.map_map] at hwritten
  refine ⟨results, log, tree', hrun, hunits, hnames, hwritten, base, hbase, ?_, ?_, ?_⟩
  · intro unit hunit
    have hleads := haccounts.leads (unit, place base unit.name) (List.mem_map_of_mem hunit)
    exact ⟨hleads, fun hrelative => prefix_place hrelative base⟩
  · exact fun before unit after => haccounts.node?_place
  · intro hplain
    refine ⟨haccounts.nodup_places hplain, fun unit hunit => ?_⟩
    have hname := hplain unit hunit
    exact ⟨isBelow_pathFor root hname, hname.place_eq base, haccounts.node?_of_plain hplain hunit⟩

/-- Two classes of one package have a file each. -/
theorem words_deposited :
    let run := ((putAll "out" [⟨"app.Words", ⟨0⟩, "one"⟩, ⟨"app.Box", ⟨0⟩, "two"⟩]).run {}).run {}
    deposited run.1.1 = [⟨"app.Words", ⟨0⟩, "one"⟩, ⟨"app.Box", ⟨0⟩, "two"⟩] ∧
      (∀ unit ∈ deposited run.1.1, IsPlain unit.name) ∧
      run.2.node? ["out", "app", "Words.java"] = some (.file "one".toUTF8) := by
  intro run
  have hunits : deposited run.1.1 =
      [⟨"app.Words", ⟨0⟩, "one"⟩, ⟨"app.Box", ⟨0⟩, "two"⟩] := by
    decide +kernel
  have hroot : (run.2.follow (run.2.start "out") (steps "out")).toOption = some ["out"] := by
    decide +kernel
  have hplain : ∀ unit ∈ deposited run.1.1, IsPlain unit.name := by
    rw [hunits]
    simp only [List.forall_mem_cons]
    exact ⟨isPlain_of_isQualified (by unfold Companion.IsQualified; decide +kernel),
      isPlain_of_isQualified (by unfold Companion.IsQualified; decide +kernel), nofun⟩
  refine ⟨hunits, hplain, ?_⟩
  obtain ⟨results, log, tree, hrun, -, -, -, base, hbase, -, -, hall⟩ :=
    putAll_deposits "out" {} [⟨"app.Words", ⟨0⟩, "one"⟩, ⟨"app.Box", ⟨0⟩, "two"⟩]
  have hrun : run = ((results, log), tree) := hrun
  rw [hrun] at hunits hroot hplain ⊢
  have hbase : ["out"] = base := by
    cases hfollow : tree.follow (tree.start "out") (steps "out") with
    | ok location =>
      rw [hfollow] at hroot
      obtain rfl := Option.some.inj hroot
      exact hbase _ hfollow
    | error fault =>
      rw [hfollow] at hroot
      exact nomatch hroot
  have hword : (⟨"app.Words", ⟨0⟩, "one"⟩ : GeneratedUnit) ∈ deposited results := by
    rw [hunits]
    exact List.mem_cons_self
  obtain ⟨-, hplace, hfile⟩ := (hall hplain).2 _ hword
  have hentries : entryNames "app.Words" = ["app", "Words.java"] := by decide +kernel
  rw [hplace, ← hbase, hentries] at hfile
  exact hfile

/-- Names with different gaps between their dots share a file, which is left to the second of them,
and a name with a slash behind a dot leaves the root. -/
theorem gap_shares_file :
    let run := ((putAll "out" [⟨"a.B", ⟨0⟩, "one"⟩, ⟨"a..B", ⟨0⟩, "two"⟩]).run {}).run {}
    run.1.1.map (fun result => result.2.isOk) = [true, true] ∧
      run.1.2.written = #["out/a/B.java", "out/a/B.java"] ∧
      run.2.contents? "out/a/B.java" = some "two".toUTF8 ∧
      pathFor "out" "/etc.B" = "/etc/B.java" := by
  decide +kernel

end DirectoryLog

end ParcelCompanion
