import Mathlib.Data.List.Nodup
import ParcelCompanion.Document.Build
import ParcelCompanion.Proofs.Output.Directory
import ParcelCompanion.Proofs.Output.Memory
import ParcelCompanion.Proofs.Round.Results

/-!
# Putting companions into memory and into a directory

A round that keeps its companions in memory predicts what a round into an empty directory does, as
long as the file system refuses nothing.  Both sinks take the same names, so they refuse the same
companions.  The invariant of the loop relates what the two have by then: the paths that were
written are those of the units, and the tree has changed by their files and the directories above
them.
-/

namespace ParcelCompanion.Round

open DirectoryLog FileTree

variable {root : String} {base : Location} {before tree tree' after : FileTree}
  {store : UnitStore} {log : DirectoryLog}

/-! ### Rounds over all annotated elements -/

/-- Whether a companion was not put out because the file system refused something. -/
def isRefused : Except EmissionFault Unit → Bool
  | .error (.output fault) => fault.isOfFiles
  | _ => false

/-- The companions of a round over all annotated elements of a model. -/
def companionsOf (m : Model) (settings : Settings) : List Companion :=
  (takeElements m settings (m.annotatedWith settings.marker)).targets.companions.toList

/-- The report and the diagnostics of a round over all annotated elements of a model, from what
becomes of its companions. -/
def conclude (m : Model) (settings : Settings) (results : List (Except EmissionFault Unit)) :
    Report × List Diagnostic :=
  settle m settings (m.annotatedWith settings.marker) results

lemma runAll_eq {m : Type → Type} [Monad m] [LawfulMonad m] {unit : Type} (model : Model)
    (settings : Settings) (sink : Sink m unit) :
    runAll model settings sink =
      conclude model settings <$>
        emissions Companion.source sink (companionsOf model settings) :=
  run_eq model settings Companion.source sink (model.annotatedWith settings.marker)

/-! ### The invariant -/

/-- A directory and a store have the same units: the paths that were written are theirs, and the
tree has changed by their files and the directories above them. -/
structure Mirrors (root : String) (base : Location) (before : FileTree) (store : UnitStore)
    (log : DirectoryLog) (tree : FileTree) : Prop where
  taken : log.taken = store.taken
  taken_iff : ∀ name, store.taken.contains name = true ↔
    ∃ unit ∈ store.units.toList, unit.name = name
  nodup : (store.units.toList.map GeneratedUnit.name).Nodup
  qualified : ∀ unit ∈ store.units.toList, Companion.IsQualified unit.name
  written : log.written.toList = store.units.toList.map fun unit => pathFor root unit.name
  root : tree.follow (tree.start root) (steps root) = .ok base
  directory : tree.node? base = some .directory
  leads : ∀ unit ∈ store.units.toList, tree.Leads base (entryNames unit.name)
  file : ∀ unit ∈ store.units.toList,
    tree.node? (base ++ entryNames unit.name) = some (.file unit.text.toUTF8)
  others : ∀ location, (∀ unit ∈ store.units.toList, ∀ front, front <+: entryNames unit.name →
    location ≠ base ++ front) → tree.node? location = before.node? location

/-- A unit that both sinks take is in both. -/
lemma Mirrors.add (h : Mirrors root base before store log tree) {unit : GeneratedUnit}
    (hqualified : Companion.IsQualified unit.name)
    (htaken : store.taken.contains unit.name = false)
    (hreceives : tree.Receives base (entryNames unit.name) unit.text.toUTF8 tree') :
    Mirrors root base before (store.added unit) (log.opened root unit.name) tree' := by
  have hunits : (store.added unit).units.toList = store.units.toList ++ [unit] := Array.toList_push
  have hnew : ∀ other ∈ store.units.toList, other.name ≠ unit.name := by
    intro other hother hname
    have hcontains := (h.taken_iff unit.name).mpr ⟨other, hother, hname⟩
    exact nomatch htaken.symm.trans hcontains
  have hgrows := hreceives.grows
  refine ⟨?_, fun name => ?_, ?_, ?_, ?_, hgrows.follow_steps h.root,
    hgrows.directory base h.directory, ?_, ?_, fun location hlocation => ?_⟩
  · exact congrArg (·.insert unit.name) h.taken
  · rw [hunits, UnitStore.added, Std.TreeSet.contains_insert, Bool.or_eq_true, h.taken_iff]
    simp only [List.mem_append, List.mem_singleton, or_and_right, exists_or, exists_eq_left,
      beq_iff_eq, Std.compare_eq_iff_eq]
    exact or_comm
  · rw [hunits, List.map_append, List.map_singleton, ← List.concat_eq_append]
    refine h.nodup.concat fun hmem => ?_
    obtain ⟨other, hother, hname⟩ := List.mem_map.mp hmem
    exact hnew other hother hname
  · rw [hunits]
    exact List.forall_mem_append.mpr ⟨h.qualified, List.forall_mem_singleton.mpr hqualified⟩
  · rw [hunits, List.map_append, ← h.written]
    exact Array.toList_push
  · rw [hunits]
    refine List.forall_mem_append.mpr ⟨fun other hother => ?_,
      List.forall_mem_singleton.mpr hreceives.leads⟩
    exact (h.leads other hother).grows hgrows
  · rw [hunits]
    refine List.forall_mem_append.mpr ⟨fun other hother => ?_,
      List.forall_mem_singleton.mpr hreceives.file⟩
    have hfile := h.file other hother
    -- the file of another unit is neither on the way to the new file nor at its place
    rw [hreceives.others _ fun front hfront heq => ?_, hfile]
    by_cases hnames : front = entryNames unit.name
    · have hsame := List.append_cancel_left (heq.trans (congrArg (base ++ ·) hnames))
      exact hnew other hother (entryNames_injective hsame)
    · exact hreceives.free front hfront hnames _ (heq ▸ hfile)
  · rw [hunits] at hlocation
    obtain ⟨hold, hlast⟩ := List.forall_mem_append.mp hlocation
    rw [hreceives.others location (List.forall_mem_singleton.mp hlast), h.others location hold]

/-- Putting out a companion has the same result for both sinks, if the file system refuses nothing,
and keeps them alike. -/
lemma Mirrors.emit (h : Mirrors root base before store log tree) (companion : Companion)
    {result : Except EmissionFault Unit} {log' : DirectoryLog}
    (hrun : ((emit Companion.source (DirectoryLog.sink fileSystem root) companion).run log).run
      tree = ((result, log'), tree')) (hresult : isRefused result = false) :
    ∃ store', (emit Companion.source UnitStore.sink companion).run store = (result, store') ∧
      Mirrors root base before store' log' tree' := by
  cases hsource : companion.source with
  | error error =>
    rw [emit_of_no_source hsource] at hrun ⊢
    obtain ⟨hresult, rfl⟩ := Prod.mk.inj hrun
    obtain ⟨rfl, rfl⟩ := Prod.mk.inj hresult
    exact ⟨store, rfl, h⟩
  | ok text =>
    rw [emit_of_source hsource] at hrun ⊢
    have hplain := isPlain_of_isQualified (Companion.isQualified_fullName hsource)
    have hcases := put_cases h.root h.directory hplain log companion.origin text
    set outcome := DirectoryLog.apply
      ((DirectoryLog.sink fileSystem root).put companion.fullName companion.origin text) log tree
    have hrun : ((outcome.1.1.mapError EmissionFault.output, outcome.1.2), outcome.2) =
      ((result, log'), tree') := hrun
    rw [StateT.run_map, UnitStore.put_run, ← h.taken]
    rcases hcases with
      ⟨htaken, hput⟩ | ⟨htaken, ⟨fault, log₁, tree₁, hfault, hput⟩ | ⟨tree₁, hreceives, hput⟩⟩
    · rw [hput] at hrun
      obtain ⟨hresult, rfl⟩ := Prod.mk.inj hrun
      obtain ⟨rfl, rfl⟩ := Prod.mk.inj hresult
      rw [htaken]
      exact ⟨store, rfl, h⟩
    · rw [hput] at hrun
      obtain ⟨hrun, -⟩ := Prod.mk.inj hrun
      obtain ⟨rfl, -⟩ := Prod.mk.inj hrun
      exact nomatch hresult.symm.trans hfault
    · rw [hput] at hrun
      obtain ⟨hresult, rfl⟩ := Prod.mk.inj hrun
      obtain ⟨rfl, rfl⟩ := Prod.mk.inj hresult
      rw [htaken]
      exact ⟨_, rfl, h.add (Companion.isQualified_fullName hsource) (h.taken ▸ htaken) hreceives⟩

/-- A directory and a store that have the same units have the same units again after companions were
put out to both, one after the other, and every companion had the same result in both, provided that
the file system refused nothing. -/
lemma Mirrors.emissions (h : Mirrors root base before store log tree)
    (companions : List Companion) {results : List (Except EmissionFault Unit)}
    {log' : DirectoryLog}
    (hrun : ((emissions Companion.source (DirectoryLog.sink fileSystem root) companions).run
      log).run tree = ((results, log'), tree'))
    (hresults : ∀ result ∈ results, isRefused result = false) :
    ∃ store', (emissions Companion.source UnitStore.sink companions).run store =
        (results, store') ∧ Mirrors root base before store' log' tree' := by
  induction companions generalizing store log tree results with
  | nil =>
    obtain ⟨hresults, rfl⟩ := Prod.mk.inj hrun
    obtain ⟨rfl, rfl⟩ := Prod.mk.inj hresults
    exact ⟨store, rfl, h⟩
  | cons companion companions ih =>
    rcases hfirst : ((Round.emit Companion.source (DirectoryLog.sink fileSystem root)
      companion).run log).run tree with ⟨⟨result, log₁⟩, tree₁⟩
    rcases hrest : ((Round.emissions Companion.source (DirectoryLog.sink fileSystem root)
      companions).run log₁).run tree₁ with ⟨⟨rest, log₂⟩, tree₂⟩
    have hcons : ((Round.emissions Companion.source (DirectoryLog.sink fileSystem root)
        (companion :: companions)).run log).run tree = ((result :: rest, log₂), tree₂) := by
      rw [emissions_cons, StateT.run_bind, StateT.run_bind, hfirst]
      change StateT.run ((do
        let results ←
          Round.emissions Companion.source (DirectoryLog.sink fileSystem root) companions
        pure (result :: results)).run log₁) tree₁ = _
      rw [StateT.run_bind, StateT.run_bind, hrest]
      rfl
    obtain ⟨hresults', rfl⟩ := Prod.mk.inj (hcons.symm.trans hrun)
    obtain ⟨rfl, rfl⟩ := Prod.mk.inj hresults'
    obtain ⟨hresult, hresults⟩ := List.forall_mem_cons.mp hresults
    obtain ⟨store₁, hemit, h₁⟩ := h.emit companion hfirst hresult
    obtain ⟨store', hemissions, h'⟩ := ih h₁ hrest hresults
    refine ⟨store', ?_, h'⟩
    rw [emissions_cons, StateT.run_bind, hemit]
    change StateT.run (do
      let results ← Round.emissions Companion.source UnitStore.sink companions
      pure (result :: results)) store₁ = _
    rw [StateT.run_bind, hemissions]
    rfl

/-! ### Empty directories -/

/-- A path leads to a directory without entries. -/
structure IsEmptyDirectory (tree : FileTree) (root : String) (base : Location) : Prop where
  root : tree.follow (tree.start root) (steps root) = .ok base
  directory : tree.node? base = some .directory
  empty : ∀ names, names ≠ [] → tree.node? (base ++ names) = none

lemma IsEmptyDirectory.mirrors (h : IsEmptyDirectory before root base) :
    Mirrors root base before {} {} before := by
  refine ⟨rfl, fun name => ?_, List.nodup_nil, nofun, rfl, h.root, h.directory, nofun, nofun,
    fun _ _ => rfl⟩
  simp

/-- A directory that was empty holds exactly the given units.  Their paths are below the root, with
one component for each segment of the name, and the files there have their texts.  There are no
other files in the directory and no directories but those above the units, and nothing has changed
outside of it. -/
structure HoldsExactly (root : String) (base : Location) (before after : FileTree)
    (units : List GeneratedUnit) : Prop where
  below : ∀ unit ∈ units,
    Path.components (pathFor root unit.name) = Path.components root ++ entryNames unit.name ∧
      (entryNames unit.name).length = (Dotted.segments unit.name).length
  contents : ∀ unit ∈ units, after.contents? (pathFor root unit.name) = some unit.text.toUTF8
  files : ∀ names contents, after.node? (base ++ names) = some (.file contents) ↔
    ∃ unit ∈ units, names = entryNames unit.name ∧ contents = unit.text.toUTF8
  directories : ∀ names, after.node? (base ++ names) = some .directory ↔
    names = [] ∨ ∃ unit ∈ units, names <+: (Dotted.segments unit.name).dropLast
  outside : ∀ location, ¬ base <+: location → after.node? location = before.node? location

/-- What is below the base is the base itself, the file of a unit, or a directory above one. -/
lemma Mirrors.below (hempty : IsEmptyDirectory before root base)
    (h : Mirrors root base before store log after) {names : List String} {node : FileNode}
    (hnode : after.node? (base ++ names) = some node) :
    names = [] ∧ node = .directory ∨
      ∃ unit ∈ store.units.toList,
        names = entryNames unit.name ∧ node = .file unit.text.toUTF8 ∨
        names <+: (Dotted.segments unit.name).dropLast ∧ node = .directory := by
  by_cases hway : ∃ unit ∈ store.units.toList, names <+: entryNames unit.name
  · obtain ⟨unit, hunit, hnames⟩ := hway
    refine Or.inr ⟨unit, hunit, ?_⟩
    rcases List.prefix_concat_iff.mp hnames with rfl | hfront
    · exact Or.inl ⟨rfl, Option.some.inj (hnode.symm.trans (h.file unit hunit))⟩
    · have hdirectory :=
        (h.leads unit hunit).directory names hnames (ne_entryNames_of_above hfront)
      exact Or.inr ⟨hfront, Option.some.inj (hnode.symm.trans hdirectory)⟩
  · rw [h.others _ fun unit hunit front hfront heq =>
      hway ⟨unit, hunit, by rwa [List.append_cancel_left heq]⟩] at hnode
    by_cases hnil : names = []
    · subst hnil
      rw [List.append_nil, hempty.directory] at hnode
      exact Or.inl ⟨rfl, (Option.some.inj hnode).symm⟩
    · exact nomatch (hempty.empty names hnil).symm.trans hnode

/-- The file of a unit is read at the path of the unit. -/
lemma Mirrors.contents?_pathFor (h : Mirrors root base before store log after)
    {unit : GeneratedUnit} (hunit : unit ∈ store.units.toList) :
    after.contents? (pathFor root unit.name) = some unit.text.toUTF8 := by
  have hplain := isPlain_of_isQualified (h.qualified unit hunit)
  have hentries := isEntryName_of_mem hplain
  refine contents?_eq_some ?_ (hentries _ ?_) (getLast?_splitOn_pathFor root hplain)
  · exact (nodeAt?_eq_some_iff_of_isBelow h.root (isBelow_pathFor root hplain) hentries).mpr
      ⟨h.leads unit hunit, h.file unit hunit⟩
  · exact List.mem_append_right _ (List.mem_singleton_self _)

lemma Mirrors.holdsExactly (hempty : IsEmptyDirectory before root base)
    (h : Mirrors root base before store log after) :
    HoldsExactly root base before after store.units.toList := by
  have hbelow := fun unit hunit =>
    isBelow_pathFor root (isPlain_of_isQualified (h.qualified unit hunit))
  refine ⟨fun unit hunit => ⟨(hbelow unit hunit).components,
    length_entryNames unit.name⟩, fun unit hunit => h.contents?_pathFor hunit,
    fun names contents => ⟨fun hnode => ?_, ?_⟩, fun names => ⟨fun hnode => ?_, ?_⟩,
    fun location hlocation => ?_⟩
  · rcases h.below hempty hnode with ⟨-, hother⟩ | ⟨unit, hunit, ⟨hnames, hfile⟩ | ⟨-, hother⟩⟩
    · exact nomatch hother
    · exact ⟨unit, hunit, hnames, FileNode.file.inj hfile⟩
    · exact nomatch hother
  · rintro ⟨unit, hunit, rfl, rfl⟩
    exact h.file unit hunit
  · rcases h.below hempty hnode with ⟨hnil, -⟩ | ⟨unit, hunit, ⟨-, hother⟩ | ⟨hfront, -⟩⟩
    · exact Or.inl hnil
    · exact nomatch hother
    · exact Or.inr ⟨unit, hunit, hfront⟩
  · rintro (rfl | ⟨unit, hunit, hfront⟩)
    · rw [List.append_nil]
      exact h.directory
    · exact (h.leads unit hunit).directory names (hfront.trans (List.prefix_append _ _))
        (ne_entryNames_of_above hfront)
  · refine h.others location fun unit hunit front hfront heq => hlocation ?_
    rw [heq]
    exact List.prefix_append base front

/-- The paths that were written are different. -/
lemma Mirrors.nodup_written (h : Mirrors root base before store log after) :
    log.written.toList.Nodup := by
  rw [h.written]
  refine (List.nodup_map_iff_inj_on (h.nodup.of_map _)).mpr fun unit hunit other hother hpath => ?_
  have hcomponents := congrArg Path.components hpath
  have hplain := fun unit hunit => isPlain_of_isQualified (h.qualified unit hunit)
  rw [(isBelow_pathFor root (hplain unit hunit)).components,
    (isBelow_pathFor root (hplain other hother)).components] at hcomponents
  have hname := entryNames_injective (List.append_cancel_left hcomponents)
  exact List.inj_on_of_nodup_map h.nodup hunit hother hname

/-- A round into memory predicts a round into an empty directory, when the file system refuses
nothing.  The reports and the diagnostics are the same, the paths that are written are those of the
units in memory, in order and without repetitions, and the directory holds exactly these units. -/
theorem runAll_into_directory (m : Model) (settings : Settings) {root : String}
    {before : FileTree} {base : Location} (hempty : IsEmptyDirectory before root base)
    (hcalls : ∀ result ∈ (((emissions Companion.source (DirectoryLog.sink fileSystem root)
      (companionsOf m settings)).run {}).run before).1.1, isRefused result = false) :
    ∃ report diagnostics store log after,
      (runAll m settings UnitStore.sink).run {} = ((report, diagnostics), store) ∧
      ((runAll m settings (DirectoryLog.sink fileSystem root)).run {}).run before =
        (((report, diagnostics), log), after) ∧
      log.written.toList = store.units.toList.map (fun unit => pathFor root unit.name) ∧
      log.written.toList.Nodup ∧
      HoldsExactly root base before after store.units.toList := by
  rcases hrun : ((emissions Companion.source (DirectoryLog.sink fileSystem root)
    (companionsOf m settings)).run {}).run before with ⟨⟨results, log⟩, after⟩
  rw [hrun] at hcalls
  obtain ⟨store, hmemory, hmirrors⟩ := hempty.mirrors.emissions _ hrun hcalls
  refine ⟨(conclude m settings results).1, (conclude m settings results).2, store, log, after,
    ?_, ?_, hmirrors.written, hmirrors.nodup_written, hmirrors.holdsExactly hempty⟩
  · rw [runAll_eq, StateT.run_map, hmemory]
    rfl
  · rw [runAll_eq, StateT.run_map, StateT.run_map, hrun]
    rfl

/-- Three classes in two packages, with a marked field each.  The name of the field of `Draft` is no
identifier, so its companion has no source. -/
def mail : Document where
  declarations := [{
    name := "app.User"
    fields := [{
      name := "name"
      type := "String"
      annotations := ["kirisame.android.toolset.parcel.ParcelField"] }] }, {
    name := "app.mail.Draft"
    fields := [{
      name := "sent-at"
      type := "long"
      annotations := ["kirisame.android.toolset.parcel.ParcelField"] }] }, {
    name := "app.mail.Letter"
    fields := [{
      name := "sender"
      type := "app.User"
      annotations := ["kirisame.android.toolset.parcel.ParcelField"] }] }]

/-- A tree with nothing but one directory. -/
def emptyOut : FileTree := ({} : FileTree).put ["out"] .directory

lemma emptyOut_isEmptyDirectory : IsEmptyDirectory emptyOut "out" ["out"] where
  root := by decide +kernel
  directory := by rw [emptyOut, node?_put (List.cons_ne_nil _ _), if_pos rfl]
  empty names hnames := by
    have hout : ["out"] ++ names ≠ ["out"] := by simpa using hnames
    rw [emptyOut, node?_put (List.cons_ne_nil _ _), if_neg hout]
    rfl

/-- Of the three companions of `mail` two are put into the directory, in the order of their classes,
and the file system refuses nothing. -/
theorem mail_into_directory : ∃ m, mail.build = .ok m ∧ (companionsOf m {}).length = 3 ∧
    ∃ report diagnostics store log after,
      (runAll m {} UnitStore.sink).run {} = ((report, diagnostics), store) ∧
      ((runAll m {} (DirectoryLog.sink fileSystem "out")).run {}).run emptyOut =
        (((report, diagnostics), log), after) ∧
      log.written.toList = store.units.toList.map (fun unit => pathFor "out" unit.name) ∧
      log.written.toList.Nodup ∧
      HoldsExactly "out" ["out"] emptyOut after store.units.toList ∧
      log.written.toList =
        ["out/app/User$$ParcelDelegate.java", "out/app/mail/Letter$$ParcelDelegate.java"] := by
  obtain ⟨m, hbuild, hround⟩ : ∃ m, mail.build = .ok m ∧
      let run := ((emissions Companion.source (DirectoryLog.sink fileSystem "out")
        (companionsOf m {})).run {}).run emptyOut
      ((companionsOf m {}).length, run.1.1.all fun result => !isRefused result,
        run.1.2.written.toList) =
      (3, true,
        ["out/app/User$$ParcelDelegate.java", "out/app/mail/Letter$$ParcelDelegate.java"]) :=
    exists_ok_of_toOption_map (by decide +kernel)
  obtain ⟨hlength, hrest⟩ := Prod.mk.inj hround
  obtain ⟨hcalls, hpaths⟩ := Prod.mk.inj hrest
  obtain ⟨report, diagnostics, store, log, after, hmemory, hdirectory, hwritten, hnodup, hexact⟩ :=
    runAll_into_directory m {} emptyOut_isEmptyDirectory fun result hresult => by
      simpa using List.all_eq_true.mp hcalls result hresult
  refine ⟨m, hbuild, hlength, report, diagnostics, store, log, after, hmemory, hdirectory, hwritten,
    hnodup, hexact, ?_⟩
  -- the paths of the whole round are those of its emissions
  rw [runAll_eq, StateT.run_map, StateT.run_map] at hdirectory
  exact congrArg (·.1.2.written.toList) hdirectory ▸ hpaths

end ParcelCompanion.Round
