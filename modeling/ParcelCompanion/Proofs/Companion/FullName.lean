import ParcelCompanion.Companion.Basic
import ParcelCompanion.Proofs.Model.Packages

/-!
# When companions have the same name

The full name of a companion is put together from a package, a relative name without its dots, and a
suffix.  It can be taken apart again: no dot stands behind the package, and the suffix is known if
neither of the two is the end of the other.  Only the dots of the relative name are lost, since
dollar signs take their place.  So companions have the same name exactly when their targets are in
the same package, they follow the same strategy, and the relative names of their targets differ at
most in dots and dollar signs.
-/

namespace ParcelCompanion

/-- Neither suffix has a dot, and neither is the end of the other. -/
structure Settings.SuffixesApart (settings : Settings) : Prop where
  no_dot : ∀ strategy : Strategy, '.' ∉ (strategy.suffix settings).toList
  apart : ∀ strategy other : Strategy,
    (strategy.suffix settings).toList <:+ (other.suffix settings).toList → strategy = other

namespace Companion

open Model

variable {companion other : Companion} {name package target suffix : String} {settings : Settings}

/-! ### Flattened names -/

lemma toList_flatten (name : String) :
    (flatten name).toList = name.toList.map fun c => if c = '.' then '$' else c :=
  String.toList_ofList

lemma no_dot_flatten (name : String) : '.' ∉ (flatten name).toList := by
  rw [toList_flatten, List.mem_map]
  rintro ⟨c, -, hc⟩
  split at hc
  · exact absurd hc (by decide)
  · next hne => exact hne hc

/-- Names without dollar signs are the same if they are the same with dollar signs for their
dots. -/
lemma eq_of_flatten_eq {a b : String} (ha : '$' ∉ a.toList) (hb : '$' ∉ b.toList)
    (h : flatten a = flatten b) : a = b := by
  have hback : ∀ name : String, '$' ∉ name.toList →
      ((flatten name).toList.map fun c => if c = '$' then '.' else c) = name.toList := by
    intro name hname
    rw [toList_flatten, List.map_map]
    refine (List.map_congr_left fun c hc => ?_).trans (List.map_id _)
    have hmark : c ≠ '$' := ne_of_mem_of_not_mem hc hname
    by_cases hdot : c = '.' <;> simp [hdot, hmark]
  apply String.toList_injective
  rw [← hback a ha, ← hback b hb, h]

/-! ### Full names -/

lemma no_dot_classNameFor (package target : String) (hsuffix : '.' ∉ suffix.toList) :
    '.' ∉ (classNameFor package target suffix).toList := by
  rw [classNameFor, String.toList_append, List.mem_append, not_or]
  exact ⟨no_dot_flatten _, hsuffix⟩

/-- The package of a companion is everything before the last dot of its full name. -/
lemma outer?_fullName (h : '.' ∉ companion.className.toList) :
    (Dotted.outer? companion.fullName).getD "" = companion.package := by
  unfold fullName
  split
  · next hpackage =>
    rw [Dotted.outer?_eq_none h, Option.getD_none, String.isEmpty_iff.mp hpackage]
  · rw [Dotted.outer?_member h, Option.getD_some]

/-- The simple name of the full name of a companion is its class name, if that has no dots. -/
lemma simple_fullName (h : '.' ∉ companion.className.toList) :
    Dotted.simple companion.fullName = companion.className := by
  unfold fullName
  split
  · exact Dotted.simple_eq_self h
  · exact Dotted.simple_member h

/-- A full name without dots behind the package determines the package and the name of the class. -/
lemma fullName_eq_fullName_iff (h : '.' ∉ companion.className.toList)
    (hother : '.' ∉ other.className.toList) :
    companion.fullName = other.fullName ↔
      companion.package = other.package ∧ companion.className = other.className := by
  constructor
  · intro heq
    refine ⟨?_, ?_⟩
    · rw [← outer?_fullName h, ← outer?_fullName hother, heq]
    · rw [← simple_fullName h, ← simple_fullName hother, heq]
  · rintro ⟨hpackage, hclass⟩
    rw [fullName, fullName, hpackage, hclass]

/-- The end of a name tells the strategy, and the rest is the flattened name. -/
lemma append_suffix_eq_iff (h : settings.SuffixesApart) {a b : String}
    {strategy strategy' : Strategy} :
    a ++ strategy.suffix settings = b ++ strategy'.suffix settings ↔
      strategy = strategy' ∧ a = b := by
  constructor
  · intro heq
    have hlist := congrArg String.toList heq
    rw [String.toList_append, String.toList_append] at hlist
    obtain rfl : strategy = strategy' := by
      have hends : (strategy'.suffix settings).toList <:+
          a.toList ++ (strategy.suffix settings).toList :=
        hlist ▸ List.suffix_append _ _
      rcases List.suffix_or_suffix_of_suffix (List.suffix_append _ _) hends with hsuffix | hsuffix
      · exact h.apart _ _ hsuffix
      · exact (h.apart _ _ hsuffix).symm
    exact ⟨rfl, String.toList_injective (List.append_cancel_right hlist)⟩
  · rintro ⟨rfl, rfl⟩
    rfl

/-- In a finished model, a declaration is in the default package or named by its package, a dot and a
relative name.  If neither suffix has a dot or is the end of the other, the companions of two
declarations have the same full name exactly when the declarations are in the same package, the
strategies are the same and the relative names are the same once flattened.  Without dollar signs in
their names, different declarations have companions of different names, and each is in the package of
its target. -/
theorem fullName_eq_iff {calls : List Call} {m : Model}
    (hfinish : (afterCalls calls).finish = .ok m) :
    (∀ id d, m.declaration? id = some d →
      d.package = "" ∨ relativeName d.package d.name ≠ "" ∧
        d.name = d.package ++ "." ++ relativeName d.package d.name) ∧
    ∀ settings : Settings, settings.SuffixesApart →
      ∀ id d id' d', m.declaration? id = some d → m.declaration? id' = some d' →
      ∀ strategy strategy',
        ((ofTarget id d strategy settings).fullName =
            (ofTarget id' d' strategy' settings).fullName ↔
          d.package = d'.package ∧ strategy = strategy' ∧
            flatten (relativeName d.package d.name) =
              flatten (relativeName d'.package d'.name)) ∧
        ('$' ∉ d.name.toList → '$' ∉ d'.name.toList → id ≠ id' →
          (ofTarget id d strategy settings).fullName ≠
            (ofTarget id' d' strategy' settings).fullName) ∧
        (Dotted.outer? (ofTarget id d strategy settings).fullName).getD "" = d.package := by
  have hhoused := housed_of_finish hfinish
  have hlinked := ((afterCalls_coherent calls).1.finish hfinish).toLinked
  refine ⟨fun id d hd => Header.isInside_iff.mp (hhoused id d hd), ?_⟩
  intro settings hapart id d id' d' hd hd' strategy strategy'
  have hdot : '.' ∉ (ofTarget id d strategy settings).className.toList :=
    no_dot_classNameFor _ _ (hapart.no_dot strategy)
  have hdot' : '.' ∉ (ofTarget id' d' strategy' settings).className.toList :=
    no_dot_classNameFor _ _ (hapart.no_dot strategy')
  have hiff : (ofTarget id d strategy settings).fullName =
        (ofTarget id' d' strategy' settings).fullName ↔
      d.package = d'.package ∧ strategy = strategy' ∧
        flatten (relativeName d.package d.name) = flatten (relativeName d'.package d'.name) := by
    rw [fullName_eq_fullName_iff hdot hdot']
    exact and_congr_right fun _ => append_suffix_eq_iff hapart
  refine ⟨hiff, fun hmark hmark' hne heq => hne ?_, outer?_fullName hdot⟩
  obtain ⟨hpackage, -, hflat⟩ := hiff.mp heq
  have hrelative := eq_of_flatten_eq
    (mt (fun h => (relativeName_suffix _ _).subset h) hmark)
    (mt (fun h => (relativeName_suffix _ _).subset h) hmark') hflat
  have hinside := hhoused id' d' hd'
  rw [← hpackage] at hrelative hinside
  exact hlinked.name_injective hd hd'
    (Header.eq_of_relativeName_eq (hhoused id d hd) hinside hrelative)

/-- Two classes of one package, of which one is nested and the other is named as if it were, and a
class of the default package. -/
def boltCalls : List Call := [
  .declare { name := "app.Bolt.Head", package := some "app" },
  .declare { name := "app.Bolt$Head" },
  .declare { name := "Bolt.Head", package := some "" }]

/-- The companions of `app.Bolt.Head` and `app.Bolt$Head` have the same full name.  That of
`Bolt.Head` is another one, and in the default package. -/
theorem bolts_fullName : ∃ m nested marked plain, (afterCalls boltCalls).finish = .ok m ∧
    m.declaration? ⟨11⟩ = some nested ∧ m.declaration? ⟨12⟩ = some marked ∧
    m.declaration? ⟨13⟩ = some plain ∧
    (ofTarget ⟨11⟩ nested .delegate {}).fullName = "app.Bolt$Head$$ParcelDelegate" ∧
    (ofTarget ⟨11⟩ nested .delegate {}).fullName = (ofTarget ⟨12⟩ marked .delegate {}).fullName ∧
    (ofTarget ⟨11⟩ nested .delegate {}).fullName ≠ (ofTarget ⟨13⟩ plain .delegate {}).fullName ∧
    (Dotted.outer? (ofTarget ⟨13⟩ plain .delegate {}).fullName).getD "" = "" := by
  obtain ⟨m, hfinish, hfound⟩ : ∃ m, (afterCalls boltCalls).finish = .ok m ∧
      [⟨11⟩, ⟨12⟩, ⟨13⟩].mapM (fun id => (m.declaration? id).map fun d => (d.name, d.package)) =
        some [("app.Bolt.Head", "app"), ("app.Bolt$Head", "app"), ("Bolt.Head", "")] :=
    exists_ok_of_toOption_map (by decide +kernel)
  simp only [mapM_eq_some_iff, List.forall₂_cons, List.forall₂_nil_left_iff, Option.map_eq_some_iff,
    Prod.mk.injEq, and_true] at hfound
  obtain ⟨⟨nested, hnested, hname, hpackage⟩, ⟨marked, hmarked, hname', hpackage'⟩,
    plain, hplain, hname'', hpackage''⟩ := hfound
  have hapart : Settings.SuffixesApart {} := by
    refine ⟨fun strategy => ?_, fun strategy other => ?_⟩
    · cases strategy <;> decide +kernel
    · cases strategy <;> cases other <;> decide +kernel
  have hnames := (fullName_eq_iff hfinish).2 {} hapart
  refine ⟨m, nested, marked, plain, hfinish, hnested, hmarked, hplain, ?_, ?_, ?_, ?_⟩
  · simp only [fullName, ofTarget, hname, hpackage]
    decide +kernel
  · refine (hnames _ _ _ _ hnested hmarked _ _).1.mpr ?_
    rw [hname, hpackage, hname', hpackage']
    decide +kernel
  · refine (hnames _ _ _ _ hnested hplain _ _).2.1 ?_ ?_ (by decide)
    · rw [hname]
      decide +kernel
    · rw [hname'']
      decide +kernel
  · exact (hnames _ _ _ _ hplain hplain _ .delegate).2.2.trans hpackage''

end Companion

end ParcelCompanion
