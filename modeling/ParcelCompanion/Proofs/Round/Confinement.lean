import ParcelCompanion.Proofs.Companion.Lines
import ParcelCompanion.Proofs.Document.Written
import ParcelCompanion.Proofs.Round.Results
import ParcelCompanion.Proofs.Round.Run

/-!
# No text of a document breaks out of its place

A document may name its declarations and type parameters by any texts, and the types of fields are
put into a source without a look at them.  Still no source has a stray character in it.  The name of
the target of a companion that has a source is made of identifiers, the types of its fields are
written in that target, and so are the bounds that take the place of type parameters, or else in a
declaration around it.  What is written there is confined to the characters of types.
-/

namespace ParcelCompanion

open Model

variable {document : Document} {m : Model}

/-- Whatever the type of a field counts as is made of the characters of types if the declaration that
encloses the field is named by the characters of names. -/
lemma Model.CountsAs.isTypeText (h : document.build = .ok m) (htidy : m.Tidy) {field : Field}
    (hfield : field ∈ m.elements) {d : Declaration} (hd : m.declaration? field.enclosing = some d)
    (hname : IsNameText d.name) {type : TypeId} (htype : m.CountsAs field.type type)
    {text : String} (htext : m.canonicalName type = .ok text) : IsTypeText text := by
  have hm : m.Coherent True := Document.coherent_of_build h
  have hwritten := Document.isWrittenIn_field h hfield hd
  cases htype with
  | other hid hterm => exact hwritten.isTypeText hm htidy hd hname htext
  | parameter hid hbound =>
    obtain ⟨owner, parameter, howner, hparameter, hfirst | ⟨-, root, hroot, rfl⟩⟩ := hbound
    · have hbound := Document.isWrittenIn_bound h howner (List.mem_of_getElem? hparameter)
        (List.mem_of_head? hfirst)
      exact hbound.isTypeText hm htidy howner
        (hwritten.isNameText_owner hm htidy hd hname hid howner) htext
    · obtain ⟨root', hroot', hdenotes⟩ := hm.denotes_root (Document.extends_of_build h)
      obtain rfl := Option.some.inj (hroot.symm.trans hroot')
      obtain rfl := Except.ok.inj (hdenotes.canonicalName.symm.trans htext)
      decide +kernel

namespace Round

variable {settings : Settings} {elements : List ElementId} {companion : Companion} {text : String}

/-- The fields of a companion were accepted for its target, which it is named after. -/
lemma exists_of_mem_companionsFor (h : companion ∈ companionsFor m settings elements) :
    ∃ target, m.declaration? companion.origin = some target ∧ companion.target = target.name ∧
      ∀ binding ∈ companion.fields, ∃ id, m.Accepts settings id companion.origin binding := by
  obtain ⟨⟨target, htarget, hmade⟩, hfields⟩ :=
    (takeElements_collects m settings elements).companions companion h
  refine ⟨target, htarget, congrArg Companion.target hmade, fun binding hbinding => ?_⟩
  rw [hfields] at hbinding
  obtain ⟨⟨origin, _⟩, haccepted, rfl⟩ := List.mem_map.mp hbinding
  obtain ⟨hmem, horigin⟩ := List.mem_filter.mp haccepted
  obtain ⟨id, -, hid⟩ := List.mem_filterMap.mp hmem
  obtain rfl : origin = companion.origin := by simpa using horigin
  exact ⟨id, accepted?_iff_accepts.mp hid⟩

/-- Whatever a document says and however a round is set up, a companion that has a source is confined
to proper characters, and the lines of its source are those that were put into it: the frame, and two
lines for each field.

Of the position of a type parameter `Edit.parameter` keeps the low 32 bits.  Behind the first
`UInt32.size` type parameters a declaration would have others that are taken for the first ones, names
and all, and `hsizes` leaves such declarations out. -/
theorem source_confined (h : document.build = .ok m)
    (hsizes : ∀ entry ∈ document.declarations, entry.parameters.length ≤ UInt32.size)
    (hcompanion : companion ∈ companionsFor m settings elements)
    (htext : companion.source = .ok text) :
    companion.IsConfined ∧
      text.toList.splitOn '\n' = companion.sourceLines.map String.toList ++ [[]] ∧
      companion.sourceLines.length =
        (if companion.package.isEmpty then 16 else 17) + 2 * companion.fields.length := by
  obtain ⟨target, htarget, hname, hfields⟩ := exists_of_mem_companionsFor hcompanion
  obtain ⟨hpackage, hclass, hproper, hnames⟩ := Companion.isNameText_of_source htext
  have hconfined : companion.IsConfined := by
    refine ⟨hpackage, hclass, hproper, hnames, fun binding hbinding => ?_⟩
    obtain ⟨id, field, enclosing, type, hfield, henclosing, htarget', htype, htypeName, -⟩ :=
      hfields binding hbinding
    obtain rfl := Option.some.inj (htarget.symm.trans htarget')
    exact htype.isTypeText h (Document.tidy_of_build h hsizes) (Array.mem_of_getElem? hfield)
      (henclosing ▸ htarget) (hname ▸ hproper) htypeName
  exact ⟨hconfined, hconfined.splitOn_source htext, companion.length_sourceLines⟩

/-- A class with a bounded type parameter, next to one whose name is no name. -/
def crates : Document where
  declarations := [
    { name := "app.Crate"
      parameters := [{ name := "T", bounds := ["Comparable<? super T>"] }]
      fields := [
        { name := "content", type := "T",
          annotations := ["kirisame.android.toolset.parcel.ParcelField"] },
        { name := "labels", type := "Labels<int[], ?>[]",
          annotations := ["kirisame.android.toolset.parcel.ParcelField"] }] },
    { name := "app.Crate.Lid;\n", parameters := [{ name := "\n" }] }]

/-- The companion of `app.Crate` has two fields and a source of twenty-one lines, which are those
that were put into it. -/
theorem crates_confined : ∃ m companion text, crates.build = .ok m ∧
    companion ∈ companionsFor m {} [⟨0⟩, ⟨1⟩] ∧ companion.source = .ok text ∧
    companion.fields.map Binding.type = ["Comparable<? super T>", "Labels<int[],?>[]"] ∧
    companion.IsConfined ∧
    text.toList.splitOn '\n' = companion.sourceLines.map String.toList ++ [[]] ∧
    companion.sourceLines.length =
      (if companion.package.isEmpty then 16 else 17) + 2 * companion.fields.length := by
  obtain ⟨m, hbuild, hfirst⟩ : ∃ m, crates.build = .ok m ∧
      (companionsFor m {} [⟨0⟩, ⟨1⟩]).head?.map (fun companion =>
        (companion.source.toOption.isSome, companion.fields.map Binding.type)) =
        some (true, ["Comparable<? super T>", "Labels<int[],?>[]"]) :=
    exists_ok_of_toOption_map (by decide +kernel)
  obtain ⟨companion, hcompanion, hfirst⟩ := Option.map_eq_some_iff.mp hfirst
  obtain ⟨hsource, htypes⟩ := Prod.mk.inj hfirst
  have hmem := List.mem_of_head? hcompanion
  cases htext : companion.source with
  | error fault => exact nomatch htext ▸ hsource
  | ok text =>
    exact ⟨m, companion, text, hbuild, hmem, htext, htypes,
      source_confined hbuild (by decide +kernel) hmem htext⟩

end Round

end ParcelCompanion
