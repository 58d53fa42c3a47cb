import ParcelCompanion.Proofs.Companion.FullName
import ParcelCompanion.Proofs.Companion.Name
import ParcelCompanion.Proofs.Round.Targets

/-!
# Suffixes that spoil a class name

The names of a target may all be identifiers and still its companion has no source, because of the
suffix that settings put behind the name of the class.  Flattening takes a relative name made of
identifiers to something that starts like an identifier and goes on like one.  So the class is named
by an identifier exactly when the suffix goes on like one, too, and the whole is no reserved word.
Usable settings do not see to that: their suffixes are neither empty nor the same, and nothing more.
-/

namespace ParcelCompanion.Companion

open Model

variable {companion : Companion} {name suffix : String}

/-! ### Identifiers -/

lemma isIdentifier_iff : isIdentifier name = true ↔
    (∃ c ∈ name.toList.head?, startsIdentifier c = true) ∧
      (∀ c ∈ name.toList, continuesIdentifier c = true) ∧ name ∉ reservedWords := by
  rw [isIdentifier]
  cases hname : name.toList with
  | nil => simp
  | cons c cs =>
    simp only [Bool.and_eq_true, List.all_eq_true, Bool.not_eq_true', List.contains_eq_mem,
      decide_eq_false_iff_not, List.head?_cons, Option.mem_def, Option.some.injEq,
      exists_eq_left', List.forall_mem_cons]
    have hfirst := continuesIdentifier_of_startsIdentifier (c := c)
    tauto

/-- Reserved words are made of lower-case letters. -/
lemma isLower_of_reserved {word : String} (h : word ∈ reservedWords) :
    ∀ c ∈ word.toList, c.isLower = true := by
  have hall : reservedWords.all (fun word => word.toList.all Char.isLower) = true := by
    decide +kernel
  exact List.all_eq_true.mp (List.all_eq_true.mp hall word h)

/-! ### Flattened names -/

/-- A name whose segments are identifiers starts like an identifier. -/
lemma IsQualified.exists_start (h : IsQualified name) :
    ∃ c ∈ name.toList.head?, startsIdentifier c = true := by
  rw [IsQualified, Dotted.segments] at h
  cases hname : name.toList with
  | nil =>
    rw [hname] at h
    exact absurd (h "" (List.mem_singleton.mpr rfl)) (by decide +kernel)
  | cons c cs =>
    rw [hname, List.splitOn_cons_eq_if_modifyHead] at h
    by_cases hdot : c = '.'
    · rw [if_pos (beq_iff_eq.mpr hdot)] at h
      exact absurd (h "" List.mem_cons_self) (by decide +kernel)
    · obtain ⟨segment, segments, hsplit⟩ :=
        List.exists_cons_of_ne_nil (List.splitOn_ne_nil '.' cs)
      rw [if_neg (mt beq_iff_eq.mp hdot), hsplit, List.modifyHead_cons] at h
      obtain ⟨⟨d, hd, hstarts⟩, -⟩ := isIdentifier_iff.mp (h _ List.mem_cons_self)
      rw [String.toList_ofList] at hd
      exact ⟨d, hd, hstarts⟩

/-- A name whose segments are identifiers starts like an identifier when dollar signs stand for its
dots. -/
lemma IsQualified.exists_start_flatten (h : IsQualified name) :
    ∃ c ∈ (flatten name).toList.head?, startsIdentifier c = true := by
  obtain ⟨c, hc, hstarts⟩ := h.exists_start
  have hdot : c ≠ '.' := by
    rintro rfl
    exact absurd hstarts (by decide +kernel)
  refine ⟨c, ?_, hstarts⟩
  rw [toList_flatten, List.head?_map, Option.mem_def.mp hc, Option.map_some, if_neg hdot]
  rfl

/-- When dollar signs stand for its dots, a name whose segments are identifiers is made of
characters that an identifier may go on with. -/
lemma IsQualified.continues_flatten (h : IsQualified name) :
    ∀ c ∈ (flatten name).toList, continuesIdentifier c = true := by
  intro c hc
  rw [toList_flatten] at hc
  obtain ⟨d, hd, rfl⟩ := List.mem_map.mp hc
  split
  · decide +kernel
  · next hdot =>
    obtain ⟨segment, hsegment, hmem⟩ := (Dotted.mem_segments hd).resolve_left hdot
    exact continuesIdentifier_of_mem (h segment hsegment) hmem

/-- Let the segments of a name be identifiers.  With dollar signs for its dots and a suffix behind,
it is an identifier if and only if an identifier may go on with every character of the suffix and
the whole is not a reserved word. -/
lemma IsQualified.isIdentifier_flatten_append (h : IsQualified name) (suffix : String) :
    isIdentifier (flatten name ++ suffix) = true ↔
      (∀ c ∈ suffix.toList, continuesIdentifier c = true) ∧
        flatten name ++ suffix ∉ reservedWords := by
  rw [isIdentifier_iff, String.toList_append, List.forall_mem_append]
  constructor
  · exact fun ⟨_, ⟨_, hsuffix⟩, hword⟩ => ⟨hsuffix, hword⟩
  · rintro ⟨hsuffix, hword⟩
    obtain ⟨c, hc, hstarts⟩ := h.exists_start_flatten
    refine ⟨⟨c, ?_, hstarts⟩, ⟨h.continues_flatten, hsuffix⟩, hword⟩
    rw [List.head?_append, Option.mem_def.mp hc, Option.some_or]
    rfl

/-- A suffix with something else than lower-case letters in it makes no reserved word. -/
lemma not_reserved_append (h : ∃ c ∈ suffix.toList, c.isLower = false) :
    name ++ suffix ∉ reservedWords := by
  obtain ⟨c, hc, hlower⟩ := h
  intro hword
  have hmem : c ∈ (name ++ suffix).toList := by
    rw [String.toList_append]
    exact List.mem_append_right _ hc
  exact nomatch hlower.symm.trans (isLower_of_reserved hword c hmem)

/-! ### Names inside packages -/

/-- The package of a name that is made of identifiers is made of identifiers, unless it is the
default package, and so is the relative name. -/
lemma IsQualified.of_isInside {package : String} (h : IsQualified name)
    (hinside : Header.isInside package name = true) :
    (package ≠ "" → IsQualified package) ∧ IsQualified (relativeName package name) := by
  rcases Header.isInside_iff.mp hinside with rfl | ⟨-, hname⟩
  · rw [relativeName_default]
    exact ⟨fun hne => absurd rfl hne, h⟩
  · rw [IsQualified, hname, Dotted.segments_member, List.forall_mem_append] at h
    exact ⟨fun _ => h.1, h.2⟩

/-! ### Sources -/

lemma foldl_addField (companion : Companion) (bindings : List Binding) :
    bindings.foldl addField companion =
      { companion with fields := companion.fields ++ bindings } := by
  induction bindings generalizing companion with
  | nil => rw [List.foldl_nil, List.append_nil]
  | cons binding bindings ih =>
    rw [List.foldl_cons, ih, addField, List.append_assoc, List.singleton_append]

lemma invalid?_append (names others : List String) :
    invalid? (names ++ others) = (invalid? names).or (invalid? others) :=
  List.find?_append

lemma invalid?_eq_none {names : List String} (h : ∀ name ∈ names, isIdentifier name = true) :
    invalid? names = none :=
  List.find?_eq_none.mpr fun name hname => by simp [h name hname]

/-- If all other names of a companion are identifiers, it depends on the name of its class alone
whether it has a source. -/
lemma source_cases (hfields : companion.fields ≠ [])
    (hpackage : companion.package ≠ "" → IsQualified companion.package)
    (htarget : IsQualified companion.target)
    (hnames : ∀ field ∈ companion.fields, isIdentifier field.name = true) :
    isIdentifier companion.className = true ∧ (∃ text, companion.source = .ok text) ∨
      isIdentifier companion.className = false ∧
        companion.source = .error (.invalidIdentifier companion.className) := by
  have hbefore : invalid? (if companion.package.isEmpty then []
      else Dotted.segments companion.package) = none := by
    refine invalid?_eq_none ?_
    split
    · exact nofun
    · next hne => exact hpackage (mt String.isEmpty_iff.mpr hne)
  have hafter : invalid? (companion.fields.map Binding.name) = none :=
    invalid?_eq_none (List.forall_mem_map.mpr hnames)
  have hinvalid : invalid? companion.identifiers = invalid? [companion.className] := by
    rw [identifiers, invalid?_append, invalid?_append, invalid?_append, hbefore,
      invalid?_eq_none htarget, hafter, Option.none_or, Option.or_none, Option.or_none]
  have hsome : companion.fields.isEmpty = false := by simpa using hfields
  rw [source, fault?, hsome, hinvalid]
  cases hclass : isIdentifier companion.className with
  | true => simp [invalid?, hclass]
  | false => simp [invalid?, hclass]

/-- A companion that was made for a declaration of a finished model, whose target is named by
identifiers and which got fields that are, has a source exactly when the suffix of its strategy is
made of characters that identifiers go on with, and the name of the class is no reserved word.
Otherwise the name of the class is what is wrong with it.  A suffix of proper characters that are not
all lower-case letters always does. -/
theorem source_of_request {calls : List Call} {m : Model}
    (hfinish : (afterCalls calls).finish = .ok m) {settings : Settings} {targets targets' : Targets}
    {id : DeclId} (hrequest : targets.request m settings id = .ok (true, companion, targets'))
    {bindings : List Binding} (hbindings : bindings ≠ [])
    (htarget : ∀ segment ∈ Dotted.segments companion.target, isIdentifier segment = true)
    (hnames : ∀ binding ∈ bindings, isIdentifier binding.name = true) :
    ((∃ text, (bindings.foldl addField companion).source = .ok text) ↔
      (∀ c ∈ (companion.strategy.suffix settings).toList, continuesIdentifier c = true) ∧
        companion.className ∉ reservedWords) ∧
    ((∀ text, (bindings.foldl addField companion).source ≠ .ok text) →
      (bindings.foldl addField companion).source =
        .error (.invalidIdentifier companion.className)) ∧
    ((∀ c ∈ (companion.strategy.suffix settings).toList, continuesIdentifier c = true) →
      (∃ c ∈ (companion.strategy.suffix settings).toList, c.isLower = false) →
        ∃ text, (bindings.foldl addField companion).source = .ok text) := by
  obtain ⟨hnew, -⟩ | ⟨-, target, hdeclared, rfl, -⟩ := Targets.request_cases hrequest
  · exact nomatch hnew
  obtain ⟨hpackage, hrelative⟩ :=
    IsQualified.of_isInside htarget (housed_of_finish hfinish id target hdeclared)
  set strategy := Targets.strategyFor m settings target
  have hclass := hrelative.isIdentifier_flatten_append (strategy.suffix settings)
  set complete := bindings.foldl addField (ofTarget id target strategy settings) with hcomplete
  rw [foldl_addField] at hcomplete
  have hcases : isIdentifier complete.className = true ∧ (∃ text, complete.source = .ok text) ∨
      isIdentifier complete.className = false ∧
        complete.source = .error (.invalidIdentifier complete.className) := by
    rw [hcomplete]
    exact source_cases hbindings hpackage htarget hnames
  have hiff : (∃ text, complete.source = .ok text) ↔
      (∀ c ∈ (strategy.suffix settings).toList, continuesIdentifier c = true) ∧
        complete.className ∉ reservedWords := by
    rw [hcomplete] at hcases ⊢
    rcases hcases with ⟨hvalid, htext⟩ | ⟨hinvalid, herror⟩
    · exact iff_of_true htext (hclass.mp hvalid)
    · refine iff_of_false ?_ fun h => Bool.false_ne_true (hinvalid.symm.trans (hclass.mpr h))
      rintro ⟨text, htext⟩
      exact nomatch herror.symm.trans htext
  have hname : complete.className = (ofTarget id target strategy settings).className := by
    rw [hcomplete]
  rw [hname] at hcases hiff
  refine ⟨hiff, fun hnone => ?_, fun hsuffix hmark =>
    hiff.mpr ⟨hsuffix, not_reserved_append hmark⟩⟩
  rcases hcases with ⟨-, text, htext⟩ | ⟨-, herror⟩
  · exact absurd htext (hnone text)
  · exact herror

/-- A class in a package. -/
def noteCalls : List Call := [.declare { name := "app.Note" }]

/-- A new round over the model of `noteCalls` makes a companion when it is asked for `app.Note`, if
evaluating the request shows that it does. -/
lemma exists_request_note (settings : Settings) (companion : Companion)
    (h : ((afterCalls noteCalls).finish.toOption.map fun m =>
      (Targets.request m settings {} ⟨11⟩).toOption.map fun answer => (answer.1, answer.2.1)) =
        some (some (true, companion))) :
    ∃ m targets, (afterCalls noteCalls).finish = .ok m ∧
      Targets.request m settings {} ⟨11⟩ = .ok (true, companion, targets) := by
  obtain ⟨m, hfinish, hanswer⟩ := exists_ok_of_toOption_map h
  obtain ⟨⟨isNew, made, targets⟩, hrequest, hmade⟩ := exists_ok_of_toOption_map hanswer
  obtain ⟨rfl, rfl⟩ := Prod.mk.inj hmade
  exact ⟨m, targets, hfinish, hrequest⟩

/-- With the suffixes that settings have by default, the companion of `app.Note` has a source. -/
theorem note_has_source : ∃ m companion targets text, (afterCalls noteCalls).finish = .ok m ∧
    Targets.request m {} {} ⟨11⟩ = .ok (true, companion, targets) ∧
    companion.className = "Note$$ParcelDelegate" ∧
    ([⟨"text", "java.lang.String"⟩].foldl addField companion).source = .ok text := by
  obtain ⟨m, targets, hfinish, hrequest⟩ := exists_request_note {}
    ⟨"app", "Note$$ParcelDelegate", "app.Note", ⟨11⟩, .delegate, []⟩ (by decide +kernel)
  have hbindings : [Binding.mk "text" "java.lang.String"] ≠ [] := List.cons_ne_nil _ _
  obtain ⟨text, htext⟩ := (source_of_request hfinish hrequest hbindings (by decide +kernel)
    (by decide +kernel)).2.2 (List.all_eq_true.mp (by decide +kernel)) ⟨'P', by decide +kernel⟩
  exact ⟨m, _, targets, text, hfinish, hrequest, rfl, htext⟩

/-- Settings with a dash in a suffix pass the check, and with them the companion of `app.Note` has
no source, although the name of the class and that of its field are made of identifiers. -/
theorem dash_spoils_className :
    Settings.check { delegateSuffix := "-Companion" } = .ok { delegateSuffix := "-Companion" } ∧
    ∃ m companion targets, (afterCalls noteCalls).finish = .ok m ∧
      Targets.request m { delegateSuffix := "-Companion" } {} ⟨11⟩ =
        .ok (true, companion, targets) ∧
      (∀ segment ∈ Dotted.segments companion.target, isIdentifier segment = true) ∧
      isIdentifier "text" = true ∧
      (companion.addField ⟨"text", "java.lang.String"⟩).source =
        .error (.invalidIdentifier "Note-Companion") := by
  refine ⟨by decide +kernel, ?_⟩
  obtain ⟨m, targets, hfinish, hrequest⟩ :=
    exists_request_note { delegateSuffix := "-Companion" }
      ⟨"app", "Note-Companion", "app.Note", ⟨11⟩, .delegate, []⟩ (by decide +kernel)
  exact ⟨m, _, targets, hfinish, hrequest, by decide +kernel, by decide +kernel, by decide +kernel⟩

/-- A suffix of proper characters may still make a reserved word. -/
example : isIdentifier (classNameFor "app" "app.cla" "ss") = false := by
  decide +kernel

end ParcelCompanion.Companion
