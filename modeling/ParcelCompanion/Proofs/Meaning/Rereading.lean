import ParcelCompanion.Proofs.Edit.Calls
import ParcelCompanion.Proofs.Meaning.Height
import ParcelCompanion.Proofs.Meaning.Reading
import ParcelCompanion.Proofs.Meaning.Respelling

/-!
# Canonical names are resolved to their types

The text that a type was resolved from need not be its canonical name, but the canonical name,
resolved in the same context, leads to the same type.  It goes through the same order of names as
any other text, so this needs names that can be read, and no member of a scope may be found in the
place of what a qualified name stands for.
-/

namespace ParcelCompanion

open Model WrittenType

/-! ### Where there is no context -/

/-- What a written type means where there is no context. -/
def WrittenType.plain? : WrittenType → Option TypeTree
  | .named name args => if args.isEmpty then (Primitive.ofKeyword? name).map .primitive else none
  | .array element => element.plain?.map .array
  | .wildcard => some .wildcard
  | .bounded kind bound => bound.plain?.map (.bounded kind)

namespace Edit

variable {m : Model} {context : DeclId}

/-- An edit finds nothing when it begins with a question that has no answer. -/
lemma finds_liftM_bind_error {α β γ : Type} {question : Except ModelError α} {e : ModelError}
    (hquestion : question = .error e) {next : α → Edit β} {q : β → γ → Model → Prop} :
    (liftM question >>= next : Edit β).Finds m none q := by
  intro _
  rw [Computes, ensures_bind, ensures_liftM, hquestion]
  exact ⟨nofun, fun _ _ => rfl⟩

/-- Where there is no context, only keywords have a meaning, and what is made of them. -/
lemma finds_resolve_plain (hcontext : m.declaration? context = none) (type : WrittenType) :
    (resolve context type).Finds m type.plain? fun id tree m' => m'.Denotes id tree := by
  match type with
  | .wildcard =>
    rw [resolve, plain?]
    exact finds_wildcard
  | .named name args =>
    rw [resolve_named, plain?]
    split
    · rw [resolveWord]
      cases Primitive.ofKeyword? name with
      | some kind =>
        have hword : (some <$> primitive kind : Edit (Option TypeId)).Finds m
            (some (TypeTree.primitive kind)) fun id? tree m' => ∃ id, id? = some id ∧
              m'.Denotes id tree :=
          (finds_primitive kind).map (g := id) fun id _ _ hid => ⟨id, rfl, hid⟩
        change Finds _ m ((some (TypeTree.primitive kind)).bind some) _
        refine hword.bind fun id? tree m' _ => ?_
        rintro ⟨id, rfl, hid⟩
        exact finds_pure hid
      | none =>
        intro hm
        rw [bind_assoc]
        refine computes_get_bind ?_
        rw [bind_assoc]
        exact finds_liftM_bind_error (findParameter_of_no_context hcontext name) hm
    · intro hm
      rw [pure_bind]
      exact computes_get_bind
        (finds_liftM_bind_error (findDeclaration_of_no_context hcontext name) hm)
  | .array element =>
    rw [resolve, plain?, Option.map_eq_bind]
    exact (finds_resolve_plain hcontext element).bind fun _ _ _ _ hid => finds_array hid
  | .bounded .upper bound =>
    rw [resolve, plain?, Option.map_eq_bind]
    exact (finds_resolve_plain hcontext bound).bind fun _ _ _ _ hid => finds_upper hid
  | .bounded .lower bound =>
    rw [resolve, plain?, Option.map_eq_bind]
    exact (finds_resolve_plain hcontext bound).bind fun _ _ _ _ hid => finds_lower hid
termination_by structural type

end Edit

/-- Where there is no context, what a written type means has the name that is its text. -/
lemma WrittenType.text_of_plain? (type : WrittenType) {tree : TypeTree}
    (h : type.plain? = some tree) :
    type.text = tree.name := by
  match type with
  | .named name [] =>
    obtain ⟨kind, hkind, rfl⟩ := Option.map_eq_some_iff.mp h
    exact (Primitive.ofKeyword?_eq_some_iff.mp hkind).symm
  | .named name (arg :: args) => exact nomatch h
  | .array element =>
    obtain ⟨inner, hinner, rfl⟩ := Option.map_eq_some_iff.mp h
    rw [text, TypeTree.name, text_of_plain? element hinner]
  | .wildcard =>
    obtain rfl := Option.some.inj h
    rfl
  | .bounded kind bound =>
    obtain ⟨inner, hinner, rfl⟩ := Option.map_eq_some_iff.mp h
    rw [text, TypeTree.name, text_of_plain? bound hinner]
termination_by structural type

/-! ### Canonical names -/

namespace Model

variable {m m' : Model} {context : DeclId} {id : TypeId} {text : String}

/-- The name is that of the context `c`, or of a declaration around it that is longer than its
package. -/
def IsScope (m : Model) (c : Declaration) (outer : String) : Prop :=
  outer = c.name ∨ (∃ rest, c.name = Dotted.member outer rest) ∧
    c.package.utf8ByteSize < outer.utf8ByteSize ∧ (m.lookup outer).isSome

/-- The names of declarations are words with dots between them and those of type parameters are
words.  The positions of type parameters fit into the 32 bits that `Edit.parameter` keeps of them. -/
structure Readable (m : Model) : Prop where
  dotted : ∀ id d, m.declaration? id = some d → IsDotted d.name
  words : ∀ id d, m.declaration? id = some d →
    ∀ parameter ∈ d.parameters, Token.IsWord parameter.name.toList
  sizes : ∀ id d, m.declaration? id = some d → d.parameters.length ≤ UInt32.size

/-- What is resolved from a text has a type for an answer, and the text is a written type. -/
lemma exists_parse_of_resolveText (h : (Edit.resolveText context text).apply m = (.ok id, m')) :
    ∃ type, parse text = .ok type ∧ (Edit.resolve context type).apply m = (.ok id, m') := by
  rw [Edit.resolveText] at h
  split at h
  · next type htype => exact ⟨type, htype, h⟩
  · cases congrArg Prod.fst h

/-- A readable model has names that nothing obscures in a context where no member of a scope has a
declared name for its own name. -/
lemma Readable.unobscured (hreadable : m.Readable) (hm : m.Coherent False) {c : Declaration}
    (hmembers : ∀ outer, m.IsScope c outer → ∀ name, (m.lookup name).isSome →
      m.lookup (Dotted.member outer name) = none) :
    m.names.Unobscured c.name c.scope := by
  have hnames : ∀ name s, m.names name = some s →
      ∃ id d, m.declaration? id = some d ∧ d.name = name ∧ d.scope = s := by
    intro name s hs
    obtain ⟨id, d, -, hd, hname, hscope⟩ := hm.exists_of_names (Option.isSome_of_mem hs)
    exact ⟨id, d, hd, hname, Option.some.inj (hscope.symm.trans hs)⟩
  refine ⟨fun name hsome => ?_, fun name s hs parameter hparameter => ?_, fun name s hs => ?_,
    fun outer houter name hname => ?_⟩
  · obtain ⟨s, hs⟩ := Option.isSome_iff_exists.mp hsome
    obtain ⟨id, d, hd, rfl, -⟩ := hnames name s hs
    exact hreadable.dotted id d hd
  · obtain ⟨id, d, hd, -, rfl⟩ := hnames name s hs
    obtain ⟨p, hp, rfl⟩ := List.mem_map.mp hparameter
    exact hreadable.words id d hd p hp
  · obtain ⟨id, d, hd, -, rfl⟩ := hnames name s hs
    exact (List.length_map _).trans_le (hreadable.sizes id d hd)
  · obtain ⟨around, hscopes, haround⟩ := Names.exists_around m.names c.name c.scope
    rw [hscopes, List.mem_cons, haround.mem_iff, hm.isSome_names] at houter
    rw [hm.isSome_names] at hname
    have hnone := hmembers outer houter name hname
    rw [← Option.isNone_iff_eq_none, ← Option.isSome_eq_false_iff] at hnone ⊢
    rwa [hm.isSome_names]

/-- A text leads to the type that denotes what resolution finds. -/
lemma resolvesText_of_finds (hm : m.Coherent False) {type : WrittenType}
    (hparse : parse text = .ok type) {tree : TypeTree}
    (hfinds : (Edit.resolve context type).Finds m (some tree) fun id tree m' => m'.Denotes id tree)
    (hid : m.Denotes id tree) : m.ResolvesText context text id := by
  have hfinds := hfinds hm
  rw [Edit.Computes, Edit.Ensures] at hfinds
  rw [ResolvesText, Edit.resolveText, hparse]
  dsimp only
  rcases hr : (Edit.resolve context type).apply m with ⟨e | id', m'⟩ <;> rw [hr] at hfinds
  · exact absurd hfinds (Option.some_ne_none tree)
  · obtain ⟨tree', htree, hadds, hid'⟩ := hfinds
    obtain rfl := Option.some.inj htree
    rw [hid'.eq hadds.coherent (hid.of_extends hadds.toExtends)]

/-- A type that was resolved in a context denotes a tree that is respelled there. -/
lemma exists_name_of_context (hm : m.Coherent False) {c : Declaration}
    (hc : m.declaration? context = some c) (hclear : m.names.Unobscured c.name c.scope)
    (h : (Edit.resolveText context text).apply m = (.ok id, m')) :
    ∃ name, m'.canonicalName id = .ok name ∧ m'.ResolvesText context name id := by
  obtain ⟨type, htype, hresolve⟩ := exists_parse_of_resolveText h
  have hfinds := Edit.finds_resolve context type hc hm
  rw [Edit.Computes, Edit.Ensures, hresolve] at hfinds
  obtain ⟨tree, htree, hadds, hid⟩ := hfinds
  have hnowildcard := (parse_wellPlaced htype).1
  obtain ⟨⟨type', hproper, htext, hwildcard, htree'⟩, hwildcard'⟩ :=
    hclear.respells_of_resolve type (isProper_of_parse htype) htree
  have hparse := parse_text_of_proper hproper.1
    ((hwildcard.trans hwildcard').trans hnowildcard) hproper.2
  refine ⟨tree.name, hid.canonicalName,
    resolvesText_of_finds hadds.coherent (htext ▸ hparse) ?_ hid⟩
  rw [← hadds.declaration?_eq] at hc
  have hfinds' := Edit.finds_resolve context type' hc
  rwa [hadds.names_eq, htree'] at hfinds'

/-- Where there is no context, a canonical name is the text of the type that was read. -/
lemma exists_name_of_no_context (hm : m.Coherent False)
    (hcontext : m.declaration? context = none)
    (h : (Edit.resolveText context text).apply m = (.ok id, m')) :
    ∃ name, m'.canonicalName id = .ok name ∧ m'.ResolvesText context name id := by
  obtain ⟨type, htype, hresolve⟩ := exists_parse_of_resolveText h
  have hfinds := Edit.finds_resolve_plain hcontext type hm
  rw [Edit.Computes, Edit.Ensures, hresolve] at hfinds
  obtain ⟨tree, htree, hadds, hid⟩ := hfinds
  obtain ⟨hnowildcard, hplaced⟩ := parse_wellPlaced htype
  have hparse := parse_text_of_proper (isDotted_of_parse htype) hnowildcard hplaced
  refine ⟨tree.name, hid.canonicalName,
    resolvesText_of_finds hadds.coherent (text_of_plain? type htree ▸ hparse) ?_ hid⟩
  rw [← hadds.declaration?_eq] at hcontext
  have hfinds' := Edit.finds_resolve_plain hcontext type
  rwa [htree] at hfinds'

/-- Whatever was called, as long as names are readable: a text that is resolved in a context leads
to a type which has a canonical name, and this name leads to the same type there, provided that no
member of the context, or of a declaration around it, has the qualified name of a declaration for
its own name. -/
theorem canonicalName_resolvesText (calls : List Call) (hreadable : (afterCalls calls).Readable)
    (hmembers : ∀ c, (afterCalls calls).declaration? context = some c →
      ∀ outer, (afterCalls calls).IsScope c outer →
        ∀ name, ((afterCalls calls).lookup name).isSome →
          (afterCalls calls).lookup (Dotted.member outer name) = none)
    (h : (Edit.resolveText context text).apply (afterCalls calls) = (.ok id, m')) :
    ∃ name, m'.canonicalName id = .ok name ∧ m'.ResolvesText context name id := by
  have hm := (afterCalls_coherent calls).1
  cases hcontext : (afterCalls calls).declaration? context with
  | none => exact exists_name_of_no_context hm hcontext h
  | some c =>
    exact exists_name_of_context hm hcontext (hreadable.unobscured hm (hmembers c hcontext)) h

/-- Whether names are readable can be seen from the list of the declarations. -/
lemma readable_of_forall (h : ∀ d ∈ m.declarations.toList, IsDotted d.name ∧
    (∀ parameter ∈ d.parameters, Token.IsWord parameter.name.toList) ∧
      d.parameters.length ≤ UInt32.size) : m.Readable := by
  have hmem : ∀ id d, m.declaration? id = some d → d ∈ m.declarations.toList := fun id d hd =>
    Array.mem_toList_iff.mpr (Array.mem_of_getElem? hd)
  exact ⟨fun id d hd => (h d (hmem id d hd)).1, fun id d hd => (h d (hmem id d hd)).2.1,
    fun id d hd => (h d (hmem id d hd)).2.2⟩

/-- Whether a member of a scope is in the way can be seen from the list of the declarations. -/
lemma members_of_forall (hm : m.Coherent False) {c : Declaration}
    (h : ∀ d ∈ m.declarations.toList, ∀ e ∈ m.declarations.toList,
      ∀ outer ∈ c.name :: Dotted.surrounding c.name, d.name ≠ Dotted.member outer e.name)
    {outer name : String} (houter : m.IsScope c outer) (hname : (m.lookup name).isSome) :
    m.lookup (Dotted.member outer name) = none := by
  have hmem : ∀ name id, m.lookup name = some id →
      ∃ d ∈ m.declarations.toList, d.name = name := by
    intro name id hid
    obtain ⟨d, hd, hname, -⟩ := hm.exists_of_lookup hid
    exact ⟨d, Array.mem_toList_iff.mpr (Array.mem_of_getElem? hd), hname⟩
  rw [Option.eq_none_iff_forall_ne_some]
  intro id hid
  obtain ⟨id', hid'⟩ := Option.isSome_iff_exists.mp hname
  obtain ⟨d, hd, hdname⟩ := hmem _ id hid
  obtain ⟨e, he, rfl⟩ := hmem name id' hid'
  refine h d hd e he outer ?_ hdname
  rw [List.mem_cons, Dotted.mem_surrounding_iff]
  exact houter.imp_right And.left

/-- A class with a member that has the simple name of another class of its package. -/
def crateCalls : List Call :=
  [.declare { name := "lib.Crate", parameters := ["T"] },
   .declare { name := "lib.Outer", parameters := ["T"] },
   .declare { name := "lib.Outer.Crate", package := some "lib", parameters := ["A", "B"] },
   .declare { name := "lib.Outer.Inner", package := some "lib" }]

/-- In `lib.Outer.Inner` the name `Crate` stands for the member of `lib.Outer` and not for the class
of the package, and the canonical name of what it stands for leads there again. -/
theorem crate_resolvesText : ∃ id m', (afterCalls crateCalls).Readable ∧
    (Edit.resolveText ⟨14⟩ "Crate<T, ? super Missing<Crate>[]>").apply (afterCalls crateCalls) =
      (.ok id, m') ∧
    m'.canonicalName id = .ok "lib.Outer.Crate<T,? super Missing<Crate>[]>" ∧
      m'.ResolvesText ⟨14⟩ "lib.Outer.Crate<T,? super Missing<Crate>[]>" id := by
  have hreadable : (afterCalls crateCalls).Readable := readable_of_forall (by decide +kernel)
  have hapart : ∀ d ∈ (afterCalls crateCalls).declarations.toList,
      ∀ e ∈ (afterCalls crateCalls).declarations.toList,
        ∀ outer ∈ "lib.Outer.Inner" :: Dotted.surrounding "lib.Outer.Inner",
          d.name ≠ Dotted.member outer e.name := by decide +kernel
  obtain ⟨c, hc, hcname⟩ : ∃ c, (afterCalls crateCalls).declaration? ⟨14⟩ = some c ∧
      c.name = "lib.Outer.Inner" := Option.map_eq_some_iff.mp (by decide +kernel)
  set outcome := (Edit.resolveText ⟨14⟩ "Crate<T, ? super Missing<Crate>[]>").apply
    (afterCalls crateCalls)
  obtain ⟨id, hid, hname⟩ : ∃ id, outcome.1 = .ok id ∧
      outcome.2.canonicalName id = .ok "lib.Outer.Crate<T,? super Missing<Crate>[]>" :=
    exists_ok_of_toOption_map (by decide +kernel)
  have h : outcome = (.ok id, outcome.2) := Prod.ext hid rfl
  have hmembers : ∀ c', (afterCalls crateCalls).declaration? ⟨14⟩ = some c' →
      ∀ outer, (afterCalls crateCalls).IsScope c' outer →
        ∀ name, ((afterCalls crateCalls).lookup name).isSome →
          (afterCalls crateCalls).lookup (Dotted.member outer name) = none := by
    intro c' hc' outer houter name
    obtain rfl := Option.some.inj (hc.symm.trans hc')
    exact members_of_forall (afterCalls_coherent crateCalls).1 (hcname ▸ hapart) houter
  obtain ⟨name, hname', hresolves⟩ := canonicalName_resolvesText crateCalls hreadable hmembers h
  obtain rfl := Except.ok.inj (hname.symm.trans hname')
  exact ⟨id, outcome.2, hreadable, h, hname, hresolves⟩

end Model

end ParcelCompanion
