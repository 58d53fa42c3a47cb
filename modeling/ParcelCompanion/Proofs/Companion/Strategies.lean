import ParcelCompanion.Proofs.Companion.FullName
import ParcelCompanion.Proofs.Model.Earlier
import ParcelCompanion.Round.Targets

/-!
# When an injector and a delegate have the same name

The full name of a companion is a stem, made of the package and the flattened relative name of the
target, and behind it a suffix.  An injector and a delegate have the same name exactly when one of
the suffixes ends in the other, and what it has in front of the other leads from the stem of one
target to that of the other.  Whether there are such targets can be told of the suffixes alone.
Usable settings have suffixes that are not the same, and this does not exclude it.
-/

namespace ParcelCompanion

open Companion Model

variable {package package' name name' front : String} {settings : Settings}

/-! ### The ends of names -/

/-- A name with a dot is a member of what stands before the last one. -/
lemma Dotted.exists_member (h : '.' ∈ name.toList) :
    ∃ scope rest, name = member scope rest ∧ '.' ∉ rest.toList := by
  cases hsplit : splitLast name.toList with
  | none => exact absurd h (not_mem_of_splitLast hsplit)
  | some parts =>
    obtain ⟨hname, hafter⟩ := eq_append_of_splitLast hsplit
    refine ⟨String.ofList parts.1, String.ofList parts.2, String.toList_injective ?_, ?_⟩
    · rw [toList_member, String.toList_ofList, String.toList_ofList, hname]
    · rwa [String.toList_ofList]

/-- Texts that end alike differ in front: one of them has something that goes behind the beginning
of the other. -/
lemma exists_front {a b c d : String} (h : a ++ b = c ++ d) :
    (∃ front, c = a ++ front ∧ b = front ++ d) ∨ ∃ front, a = c ++ front ∧ d = front ++ b := by
  have hlist := congrArg String.toList h
  rw [String.toList_append, String.toList_append] at hlist
  refine (List.append_eq_append_iff.mp hlist).imp ?_ ?_ <;>
    exact fun ⟨l, hl, hl'⟩ => ⟨String.ofList l, String.toList_injective (by simpa using hl),
      String.toList_injective (by simpa using hl')⟩

/-! ### Stems -/

namespace Companion

/-- The full name of the companion of a target, without the suffix. -/
def stem (package target : String) : String :=
  if package.isEmpty then flatten (relativeName package target)
  else Dotted.member package (flatten (relativeName package target))

lemma fullName_ofTarget (id : DeclId) (d : Declaration) (strategy : Strategy)
    (settings : Settings) :
    (ofTarget id d strategy settings).fullName =
      stem d.package d.name ++ strategy.suffix settings := by
  by_cases hpackage : d.package.isEmpty
  · exact (if_pos hpackage).trans (congrArg (· ++ _) (if_pos hpackage).symm)
  · rw [fullName, stem, if_neg hpackage]
    exact (if_neg hpackage).trans String.append_assoc.symm

lemma outer?_stem (package name : String) :
    (Dotted.outer? (stem package name)).getD "" = package := by
  unfold stem
  split
  · next hpackage =>
    rw [Dotted.outer?_eq_none (no_dot_flatten _), Option.getD_none, String.isEmpty_iff.mp hpackage]
  · rw [Dotted.outer?_member (no_dot_flatten _), Option.getD_some]

lemma simple_stem (package name : String) :
    Dotted.simple (stem package name) = flatten (relativeName package name) := by
  unfold stem
  split
  · exact Dotted.simple_eq_self (no_dot_flatten _)
  · exact Dotted.simple_member (no_dot_flatten _)

/-- Targets without dollar signs in their names have different stems. -/
lemma eq_of_stem_eq (hinside : Header.isInside package name = true)
    (hinside' : Header.isInside package' name' = true) (hmark : '$' ∉ name.toList)
    (hmark' : '$' ∉ name'.toList) (h : stem package name = stem package' name') :
    name = name' := by
  obtain rfl : package = package' := by
    rw [← outer?_stem package name, h, outer?_stem]
  have hflat : flatten (relativeName package name) = flatten (relativeName package name') := by
    rw [← simple_stem, h, simple_stem]
  refine Header.eq_of_relativeName_eq hinside hinside' (eq_of_flatten_eq ?_ ?_ hflat)
  · exact mt (fun h => (relativeName_suffix _ _).subset h) hmark
  · exact mt (fun h => (relativeName_suffix _ _).subset h) hmark'

/-! ### What leads from one stem to another -/

/-- A text that may lead from the stem of a target to that of another: something comes behind its
last dot, and no dollar sign before it.  Behind the last dot, dollar signs are the dots of relative
names. -/
def LeadsOn (text : String) : Prop :=
  Dotted.simple text ≠ "" ∧ '$' ∉ ((Dotted.outer? text).getD "").toList

lemma leadsOn_of_no_dot (h : '.' ∉ front.toList) : LeadsOn front ↔ front ≠ "" := by
  rw [LeadsOn, Dotted.simple_eq_self h, Dotted.outer?_eq_none h]
  exact and_iff_left List.not_mem_nil

lemma eq_empty_of_flatten (h : flatten name = "") : name = "" := by
  have hlist := congrArg String.toList h
  rw [toList_flatten] at hlist
  exact String.toList_injective (List.map_eq_nil_iff.mp hlist)

/-- What is at the end of a stem, if the name of the target has no dollar sign, leads on. -/
lemma leadsOn_of_stem_eq {start : String} (hinside : Header.isInside package name = true)
    (hmark : '$' ∉ name.toList) (hfront : front ≠ "") (h : stem package name = start ++ front) :
    LeadsOn front := by
  by_cases hdot : '.' ∈ front.toList
  · obtain ⟨scope, rest, rfl, hrest⟩ := Dotted.exists_member hdot
    have hmember : stem package name = Dotted.member (start ++ scope) rest := by
      rw [h, Dotted.member, Dotted.member, ← String.append_assoc, ← String.append_assoc]
    have hpackage : package = start ++ scope := by
      rw [← outer?_stem package name, hmember, Dotted.outer?_member hrest, Option.getD_some]
    have hflat : flatten (relativeName package name) = rest := by
      rw [← simple_stem, hmember, Dotted.simple_member hrest]
    rw [LeadsOn, Dotted.simple_member hrest, Dotted.outer?_member hrest, Option.getD_some]
    rcases Header.isInside_iff.mp hinside with rfl | ⟨hrelative, hname⟩
    · have hnodot : '.' ∉ (stem "" name).toList := no_dot_flatten _
      rw [hmember, Dotted.toList_member] at hnodot
      exact absurd (List.mem_append_right _ List.mem_cons_self) hnodot
    · refine ⟨hflat ▸ mt eq_empty_of_flatten hrelative, fun hscope => hmark ?_⟩
      rw [hname, hpackage, Dotted.toList_member, String.toList_append]
      exact List.mem_append_left _ (List.mem_append_right _ hscope)
  · exact (leadsOn_of_no_dot hdot).mpr hfront

/-- A relative name with dots for dollar signs, which flattening takes back. -/
def unflatten (name : String) : String :=
  String.ofList (name.toList.map fun c => if c = '$' then '.' else c)

lemma no_mark_unflatten (name : String) : '$' ∉ (unflatten name).toList := by
  rw [unflatten, String.toList_ofList, List.mem_map]
  rintro ⟨c, -, hc⟩
  split at hc
  · exact absurd hc (by decide)
  · next hne => exact hne hc

lemma flatten_unflatten (h : '.' ∉ name.toList) : flatten (unflatten name) = name := by
  apply String.toList_injective
  rw [toList_flatten, unflatten, String.toList_ofList, List.map_map]
  refine (List.map_congr_left fun c hc => ?_).trans (List.map_id _)
  have hdot : c ≠ '.' := ne_of_mem_of_not_mem hc h
  by_cases hmark : c = '$' <;> simp [hdot, hmark]

/-- Whatever leads on leads from the stem of a class in the default package to that of another
target. -/
lemma LeadsOn.exists_stem (h : LeadsOn front) :
    ∃ package name, Header.isInside package name = true ∧ '$' ∉ name.toList ∧
      name.toList.head? = some 'A' ∧ name ≠ "A" ∧ stem package name = "A" ++ front := by
  by_cases hdot : '.' ∈ front.toList
  · obtain ⟨scope, rest, rfl, hrest⟩ := Dotted.exists_member hdot
    rw [LeadsOn, Dotted.simple_member hrest, Dotted.outer?_member hrest, Option.getD_some] at h
    obtain ⟨hne, hscope⟩ := h
    have hpackage : "A" ++ scope ≠ "" := by simp
    have hrelative : relativeName ("A" ++ scope) (Dotted.member ("A" ++ scope) (unflatten rest)) =
        unflatten rest := relativeName_member hpackage
    have hempty : unflatten rest ≠ "" := fun heq =>
      hne ((flatten_unflatten hrest).symm.trans (congrArg flatten heq))
    refine ⟨"A" ++ scope, Dotted.member ("A" ++ scope) (unflatten rest),
      Header.isInside_iff.mpr (Or.inr ⟨hrelative.symm ▸ hempty, by rw [hrelative]⟩), ?_, ?_, ?_, ?_⟩
    · have hmark := no_mark_unflatten rest
      simp [Dotted.toList_member, hscope, hmark]
    · simp [Dotted.toList_member]
    · intro heq
      have hmem : '.' ∈ (Dotted.member ("A" ++ scope) (unflatten rest)).toList := by
        simp [Dotted.toList_member]
      rw [heq] at hmem
      exact absurd hmem (by decide)
    · rw [stem, if_neg (mt String.isEmpty_iff.mp hpackage), hrelative, flatten_unflatten hrest,
        Dotted.member, Dotted.member, ← String.append_assoc, ← String.append_assoc]
  · have hstart : '.' ∉ ("A" ++ front).toList := by
      rw [String.toList_append, List.mem_append, not_or]
      exact ⟨by decide, hdot⟩
    refine ⟨"", unflatten ("A" ++ front), rfl, no_mark_unflatten _, by simp [unflatten], ?_,
      flatten_unflatten hstart⟩
    intro heq
    have hback : "A" ++ front = "A" := (flatten_unflatten hstart).symm.trans (congrArg flatten heq)
    exact (leadsOn_of_no_dot hdot).mp h (by simpa using congrArg String.toList hback)

end Companion

/-! ### Models with two more classes -/

/-- A class whose name is new and inside its package is registered. -/
lemma Call.run_declare {m : Model} {header : Header} (hnew : m.lookup header.name = none)
    (hinside : Header.isInside header.packageName header.name = true) :
    (Call.declare header).run m = (m.insertDeclaration header.name header.packageName header.kind
      header.modifiers header.parameters).2 := by
  have hdeclare : (Edit.declare header).Ensures m
      (fun _ m' => m' = (m.insertDeclaration header.name header.packageName header.kind
        header.modifiers header.parameters).2) fun _ _ => False := by
    refine Edit.ensures_get_bind ?_
    rw [if_neg (by simp [hnew])]
    dsimp only
    rw [if_neg (by simp [hinside])]
    exact (Edit.ensures_modifyGet _).mpr rfl
  exact Call.run_of_ensures (p := (· = _))
    ((Edit.ensures_bind _).mpr (hdeclare.mono (fun _ _ => id) fun _ _ => False.elim))

/-- The name and the package of a declaration. -/
def Declaration.place (d : Declaration) : String × String :=
  (d.name, d.package)

/-- Registering and finishing puts one more declaration in its place and leaves the others in
theirs. -/
lemma Model.map_place {m finished : Model} {kind : DeclKind} {modifiers : Modifiers}
    {parameters : List String}
    (hfinish : (m.insertDeclaration name package kind modifiers parameters).2.finish =
      .ok finished) (id : DeclId) :
    (finished.declaration? id).map Declaration.place =
      if id.index = m.declarations.size then some (name, package)
      else (m.declaration? id).map Declaration.place := by
  have hbare := congrArg (Option.map Declaration.place)
    ((redeclares_of_finish hfinish).map_bare id)
  rw [Option.map_map, Option.map_map] at hbare
  refine hbare.trans ?_
  rw [insertDeclaration_eq, declaration?_pushDeclaration, declaration?,
    (internSelfType_frame m _ _).1]
  split <;> rfl

/-- No name in the model has a dollar sign. -/
def Model.Unmarked (m : Model) : Prop :=
  ∀ id d, m.declaration? id = some d → '$' ∉ d.name.toList

/-- The platform with a class in the default package. -/
def anchored : Model :=
  (Call.declare { name := "A", package := some "" }).run platform

lemma anchored_coherent : anchored.Coherent False :=
  (Call.run_coherent coherent_platform _).1

lemma anchored_supersEarlier : anchored.SupersEarlier := by
  rw [anchored, Call.run_declare (by decide +kernel) rfl]
  exact supersEarlier_platform.insertDeclaration (coherent_platform : platform.Coherent True)
    _ _ _ _ _

lemma anchored_places : anchored.declarations.size = 12 ∧
    (anchored.declaration? ⟨11⟩).map Declaration.place = some ("A", "") := by
  decide +kernel

/-- No name in the model `anchored` has a dollar sign, and the class `A` is the only one whose name
starts with an `A`. -/
lemma anchored_names {id : DeclId} {d : Declaration} (hd : anchored.declaration? id = some d) :
    '$' ∉ d.name.toList ∧ (d.name.toList.head? = some 'A' → d.name = "A") := by
  have hall : ∀ d ∈ anchored.declarations.toList, '$' ∉ d.name.toList ∧
      (d.name.toList.head? = some 'A' → d.name = "A") := by
    decide +kernel
  exact hall d (mem_of_declaration? hd)

/-- For every name without a dollar sign that starts with an `A` and goes on, and every package that
it is inside, there is a finished model without dollar signs that has the class `A` and a class of
this name. -/
lemma exists_anchored (hinside : Header.isInside package name = true) (hmark : '$' ∉ name.toList)
    (hhead : name.toList.head? = some 'A') (hne : name ≠ "A") :
    ∃ calls m d d', (afterCalls calls).finish = .ok m ∧ m.Unmarked ∧
      m.declaration? ⟨11⟩ = some d ∧ d.place = ("A", "") ∧
      m.declaration? ⟨12⟩ = some d' ∧ d'.place = (name, package) := by
  have hnew : anchored.lookup name = none := by
    rw [Option.eq_none_iff_forall_ne_some]
    intro id hid
    obtain ⟨e, he, rfl⟩ := (anchored_coherent.names _ id).mp hid
    exact hne ((anchored_names he).2 hhead)
  set calls : List Call := [
    .declare { name := "A", package := some "" }, .declare { name, package := some package }]
  have hcalls : afterCalls calls =
      (anchored.insertDeclaration name package .classType .onlyPublic []).2 :=
    @Call.run_declare anchored { name, package := some package } hnew hinside
  have hbuilt := afterCalls_coherent calls
  rw [hcalls] at hbuilt
  obtain ⟨m, hfinish⟩ := (anchored_supersEarlier.insertDeclaration anchored_coherent name package
    .classType .onlyPublic []).exists_finish hbuilt.1 hbuilt.2
  have hmap := map_place hfinish
  rw [anchored_places.1] at hmap
  obtain ⟨d, hd, hplace⟩ := Option.map_eq_some_iff.mp ((hmap ⟨11⟩).trans anchored_places.2)
  obtain ⟨d', hd', hplace'⟩ := Option.map_eq_some_iff.mp (hmap ⟨12⟩)
  refine ⟨calls, m, d, d', hcalls ▸ hfinish, fun id e he => ?_, hd, hplace, hd', hplace'⟩
  have hplaced := hmap id
  rw [he, Option.map_some] at hplaced
  split at hplaced
  · obtain ⟨rfl, -⟩ := Prod.mk.inj (Option.some.inj hplaced)
    exact hmark
  · obtain ⟨old, hold, heq⟩ := Option.map_eq_some_iff.mp hplaced.symm
    exact (Prod.mk.inj heq).1 ▸ (anchored_names hold).1

/-! ### Suffixes that keep the strategies apart -/

namespace Settings

/-- In no finished model without dollar signs does an injector have the same full name as the
delegate of another declaration. -/
def KeepsStrategiesApart (settings : Settings) : Prop :=
  ∀ calls m, (afterCalls calls).finish = .ok m → m.Unmarked →
    ∀ id d id' d', m.declaration? id = some d → m.declaration? id' = some d' → id ≠ id' →
      (ofTarget id d .injector settings).fullName ≠ (ofTarget id' d' .delegate settings).fullName

/-- One suffix is the other one with something in front that leads on. -/
def SuffixesMeet (settings : Settings) : Prop :=
  ∃ front, LeadsOn front ∧ (settings.injectorSuffix = front ++ settings.delegateSuffix ∨
    settings.delegateSuffix = front ++ settings.injectorSuffix)

/-- Suffixes meet where an injector has the same full name as the delegate of another declaration.
-/
lemma suffixesMeet_of_fullName_eq {calls : List Call} {m : Model}
    (hfinish : (afterCalls calls).finish = .ok m) (hmark : m.Unmarked) {id id' : DeclId}
    {d d' : Declaration} (hd : m.declaration? id = some d) (hd' : m.declaration? id' = some d')
    (hne : id ≠ id') (h : (ofTarget id d .injector settings).fullName =
      (ofTarget id' d' .delegate settings).fullName) : settings.SuffixesMeet := by
  have hhoused := housed_of_finish hfinish
  have hlinked := ((afterCalls_coherent calls).1.finish hfinish).toLinked
  have hstems : stem d.package d.name ≠ stem d'.package d'.name := fun heq =>
    hne (hlinked.name_injective hd hd' (eq_of_stem_eq (hhoused id d hd) (hhoused id' d' hd')
      (hmark id d hd) (hmark id' d' hd') heq))
  rw [fullName_ofTarget, fullName_ofTarget] at h
  rcases exists_front h with ⟨front, hstem, hsuffix⟩ | ⟨front, hstem, hsuffix⟩
  · refine ⟨front, leadsOn_of_stem_eq (hhoused id' d' hd') (hmark id' d' hd') ?_ hstem,
      Or.inl hsuffix⟩
    rintro rfl
    exact hstems (hstem.trans String.append_empty).symm
  · refine ⟨front, leadsOn_of_stem_eq (hhoused id d hd) (hmark id d hd) ?_ hstem, Or.inr hsuffix⟩
    rintro rfl
    exact hstems (hstem.trans String.append_empty)

/-- What leads on and stands in front of one suffix in another makes companions meet: the longer
suffix goes behind the shorter stem. -/
lemma exists_fullName_eq (strategy other : Strategy) (hfront : LeadsOn front)
    (h : strategy.suffix settings = front ++ other.suffix settings) :
    ∃ calls m, (afterCalls calls).finish = .ok m ∧ m.Unmarked ∧
      ∃ id d id' d', m.declaration? id = some d ∧ m.declaration? id' = some d' ∧ id ≠ id' ∧
        (ofTarget id d strategy settings).fullName =
          (ofTarget id' d' other settings).fullName := by
  obtain ⟨package, name, hinside, hmark, hhead, hne, hstem⟩ := hfront.exists_stem
  obtain ⟨calls, m, d, d', hfinish, hunmarked, hd, hplace, hd', hplace'⟩ :=
    exists_anchored hinside hmark hhead hne
  obtain ⟨hname, hpackage⟩ := Prod.mk.inj hplace
  obtain ⟨hname', hpackage'⟩ := Prod.mk.inj hplace'
  refine ⟨calls, m, hfinish, hunmarked, _, d, _, d', hd, hd', by decide, ?_⟩
  have hanchor : stem "" "A" = "A" := by decide +kernel
  rw [fullName_ofTarget, fullName_ofTarget, hname, hpackage, hname', hpackage', hanchor, hstem, h,
    String.append_assoc]

/-- The suffixes of usable settings are not the same. -/
lemma suffix_ne_of_check (h : settings.check = .ok settings) :
    settings.injectorSuffix ≠ settings.delegateSuffix := by
  intro heq
  unfold check at h
  split at h
  · next hfault =>
    unfold fault? at hfault
    rw [if_pos heq] at hfault
    split_ifs at hfault
  · exact nomatch h

/-- Without dots in them, suffixes that are not the same meet if one of them is the end of the
other. -/
lemma suffixesMeet_iff (hne : settings.injectorSuffix ≠ settings.delegateSuffix)
    (hdot : ∀ strategy : Strategy, '.' ∉ (strategy.suffix settings).toList) :
    ¬ settings.SuffixesMeet ↔ settings.SuffixesApart := by
  have hleads : ∀ {longer shorter front : String}, '.' ∉ longer.toList → shorter ≠ longer →
      longer = front ++ shorter → LeadsOn front := by
    rintro longer shorter front hlonger hne rfl
    rw [String.toList_append, List.mem_append, not_or] at hlonger
    refine (leadsOn_of_no_dot hlonger.1).mpr ?_
    rintro rfl
    exact hne String.empty_append.symm
  constructor
  · refine fun hmeet => ⟨hdot, fun strategy other hend => ?_⟩
    obtain ⟨front, hfront⟩ := hend
    have hsuffix : other.suffix settings = String.ofList front ++ strategy.suffix settings :=
      String.toList_injective (by simpa using hfront.symm)
    cases strategy <;> cases other
    · rfl
    · exact absurd ⟨_, hleads (hdot .delegate) hne hsuffix, Or.inr hsuffix⟩ hmeet
    · exact absurd ⟨_, hleads (hdot .injector) hne.symm hsuffix, Or.inl hsuffix⟩ hmeet
    · rfl
  · rintro hapart ⟨front, -, hsuffix | hsuffix⟩
    · have hend := congrArg String.toList hsuffix
      rw [String.toList_append] at hend
      exact nomatch hapart.apart .delegate .injector ⟨_, hend.symm⟩
    · have hend := congrArg String.toList hsuffix
      rw [String.toList_append] at hend
      exact nomatch hapart.apart .injector .delegate ⟨_, hend.symm⟩

/-- Settings keep injectors and delegates apart exactly when their suffixes do not meet.  If the
settings are usable and have no dots in their suffixes, this is to say that neither suffix is the
end of the other. -/
theorem keepsStrategiesApart_iff (settings : Settings) :
    (settings.KeepsStrategiesApart ↔ ¬ settings.SuffixesMeet) ∧
    (settings.check = .ok settings →
      (∀ strategy : Strategy, '.' ∉ (strategy.suffix settings).toList) →
        (settings.KeepsStrategiesApart ↔ settings.SuffixesApart)) := by
  have hiff : settings.KeepsStrategiesApart ↔ ¬ settings.SuffixesMeet := by
    constructor
    · rintro hapart ⟨front, hfront, hsuffix | hsuffix⟩
      · obtain ⟨calls, m, hfinish, hunmarked, id, d, id', d', hd, hd', hne, heq⟩ :=
          exists_fullName_eq .injector .delegate hfront hsuffix
        exact hapart calls m hfinish hunmarked id d id' d' hd hd' hne heq
      · obtain ⟨calls, m, hfinish, hunmarked, id, d, id', d', hd, hd', hne, heq⟩ :=
          exists_fullName_eq .delegate .injector hfront hsuffix
        exact hapart calls m hfinish hunmarked id' d' id d hd' hd hne.symm heq.symm
    · intro hmeet calls m hfinish hunmarked id d id' d' hd hd' hne heq
      exact hmeet (suffixesMeet_of_fullName_eq hfinish hunmarked hd hd' hne heq)
  exact ⟨hiff, fun hcheck hdot =>
    hiff.trans (suffixesMeet_iff (suffix_ne_of_check hcheck) hdot)⟩

/-- The suffixes that settings have by default keep injectors and delegates apart. -/
theorem default_keepsStrategiesApart : KeepsStrategiesApart {} := by
  have hdot : ∀ strategy : Strategy, '.' ∉ (strategy.suffix {}).toList := by
    rintro (_ | _) <;> decide +kernel
  refine ((keepsStrategiesApart_iff {}).2 (by decide +kernel) hdot).mpr ⟨hdot, ?_⟩
  rintro (_ | _) (_ | _) <;> decide +kernel

/-- Suffixes of which one ends in the other. -/
def meetingSuffixes : Settings where
  injectorSuffix := "Parcel"
  delegateSuffix := "DelegateParcel"

/-- An interface, a class that implements it, and a class that does not. -/
def userCalls : List Call := [
  .declare { name := "android.os.Parcelable", kind := .interfaceType },
  .declare { name := "app.UserDelegate" },
  .declare { name := "app.User" },
  .addInterface ⟨12⟩ ⟨11⟩]

/-- The settings `meetingSuffixes` pass the check, and in a model without dollar signs they give the
injector of `app.UserDelegate` and the delegate of `app.User` the same full name. -/
theorem users_share_fullName :
    Settings.check meetingSuffixes = .ok meetingSuffixes ∧
    ∃ m injector delegate targets targets', (afterCalls userCalls).finish = .ok m ∧ m.Unmarked ∧
      Targets.request m meetingSuffixes {} ⟨12⟩ = .ok (true, injector, targets) ∧
      Targets.request m meetingSuffixes targets ⟨13⟩ = .ok (true, delegate, targets') ∧
      injector.strategy = .injector ∧ delegate.strategy = .delegate ∧
      injector.fullName = delegate.fullName := by
  refine ⟨by decide +kernel, ?_⟩
  obtain ⟨m, hfinish, htold⟩ : ∃ m, (afterCalls userCalls).finish = .ok m ∧
      ((m.declarations.toList.all fun d => !d.name.toList.contains '$'),
        (Targets.request m meetingSuffixes {} ⟨12⟩).toOption.map fun (isNew, injector, targets) =>
          ((isNew, injector), (Targets.request m meetingSuffixes targets ⟨13⟩).toOption.map
            fun (isNew, delegate, _) => (isNew, delegate))) =
      (true, some ((true, ⟨"app", "UserDelegateParcel", "app.UserDelegate", ⟨12⟩, .injector, []⟩),
        some (true, ⟨"app", "UserDelegateParcel", "app.User", ⟨13⟩, .delegate, []⟩))) :=
    exists_ok_of_toOption_map (by decide +kernel)
  obtain ⟨hmarks, hrequests⟩ := Prod.mk.inj htold
  obtain ⟨⟨isNew, injector, targets⟩, hinjector, htold⟩ := exists_ok_of_toOption_map hrequests
  obtain ⟨hfirst, hsecond⟩ := Prod.mk.inj htold
  obtain ⟨⟨isNew', delegate, targets'⟩, hdelegate, hsecond⟩ := exists_ok_of_toOption_map hsecond
  obtain ⟨rfl, rfl⟩ := Prod.mk.inj hfirst
  obtain ⟨rfl, rfl⟩ := Prod.mk.inj hsecond
  refine ⟨m, _, _, targets, targets', hfinish, fun id d hd => ?_, hinjector, hdelegate, rfl, rfl,
    rfl⟩
  simpa using List.all_eq_true.mp hmarks d (mem_of_declaration? hd)

end Settings

end ParcelCompanion
