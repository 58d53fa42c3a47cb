import ParcelCompanion.Model.Primitive
import ParcelCompanion.Proofs.Text.Dotted
import ParcelCompanion.Proofs.Written.Printing

/-!
# Proper written types

A name can be read when it is made of words with dots between them, that is, when all of its
segments are words.  A written type is proper when its names can be read and its wildcards are in
place.  Such are the trees of all texts, and the parts of proper types are proper.
-/

namespace ParcelCompanion.WrittenType

variable {name other : String}

/-! ### Names -/

namespace Token

instance : DecidablePred IsWord
  | [] => isFalse (by rintro ⟨_, _, heq, -⟩; exact nomatch heq)
  | c :: cs => decidable_of_iff (startsWord c = true ∧ cs.all continuesWord = true) (by
      rw [List.all_eq_true]
      constructor
      · rintro ⟨hc, hcs⟩
        exact ⟨c, cs, rfl, hc, hcs⟩
      · rintro ⟨_, _, heq, hc, hcs⟩
        obtain ⟨rfl, rfl⟩ := List.cons.inj heq
        exact ⟨hc, hcs⟩)

lemma IsWord.dot_not_mem {word : List Char} (h : IsWord word) : '.' ∉ word := by
  obtain ⟨c, cs, rfl, hc, hcs⟩ := h
  rw [List.mem_cons, not_or]
  constructor
  · rintro rfl
    exact absurd hc (by decide +kernel)
  · intro hmem
    exact absurd (hcs _ hmem) (by decide +kernel)

end Token

/-- A member of a name that can be written can be written. -/
lemma IsDotted.member (h : IsDotted name) (hother : IsDotted other) :
    IsDotted (Dotted.member name other) := by
  induction h with
  | word hword => exact .dotted hword hother
  | @dotted word name hword _ ih =>
    have hassoc : Dotted.member (word ++ "." ++ name) other =
        word ++ "." ++ Dotted.member name other := by
      simp only [Dotted.member, String.append_assoc]
    rw [hassoc]
    exact .dotted hword ih

/-- A name can be written exactly when its segments are words. -/
lemma isDotted_iff :
    IsDotted name ↔ ∀ segment ∈ Dotted.segments name, Token.IsWord segment.toList := by
  constructor
  · intro h
    induction h with
    | word hword =>
      rw [Dotted.segments_eq_singleton hword.dot_not_mem]
      exact List.forall_mem_singleton.mpr hword
    | @dotted word name hword _ ih =>
      rw [← Dotted.member, Dotted.segments_member, Dotted.segments_eq_singleton hword.dot_not_mem]
      exact List.forall_mem_cons.mpr ⟨hword, ih⟩
  · -- The name is put together from the name around it and its last segment.
    intro h
    induction hn : (Dotted.segments name).length using Nat.strongRecOn generalizing name with
    | ind n ih =>
      cases houter : Dotted.outer? name with
      | none =>
        have hsegments := Dotted.segments_of_outer_eq_none houter
        have hword := h _ (hsegments ▸ List.mem_singleton_self _)
        have heq : name = Dotted.simple name := Dotted.segments_injective
          (hsegments.trans (Dotted.segments_eq_singleton hword.dot_not_mem).symm)
        rw [heq]
        exact .word hword
      | some outer =>
        have hsegments := Dotted.segments_of_outer_eq_some houter
        rw [hsegments, List.forall_mem_append, List.forall_mem_singleton] at h
        have heq : name = Dotted.member outer (Dotted.simple name) := by
          apply Dotted.segments_injective
          rw [hsegments, Dotted.segments_member, Dotted.segments_eq_singleton h.2.dot_not_mem]
        rw [heq]
        refine (ih _ ?_ h.1 rfl).member (.word h.2)
        rw [← hn, hsegments, List.length_append, List.length_singleton]
        exact Nat.lt_succ_self _

instance : DecidablePred IsDotted := fun _ => decidable_of_iff _ isDotted_iff.symm

/-- The keywords of primitive types are words. -/
lemma isWord_primitive (kind : Primitive) : Token.IsWord kind.keyword.toList := by
  cases kind <;> decide +kernel

/-- No name that can be written starts with a dot. -/
lemma not_isDotted_member_empty : ¬ IsDotted (Dotted.member "" name) := by
  rw [isDotted_iff, Dotted.segments_member]
  intro h
  exact (h "" List.mem_cons_self).ne_nil rfl

/-! ### Proper types -/

/-- The names in a written type can be read and its wildcards are in place. -/
def IsProper (type : WrittenType) : Prop :=
  (∀ name ∈ type.names, IsDotted name) ∧ type.WellPlaced

lemma texts_eq_map (types : List WrittenType) : texts types = types.map text := by
  induction types with
  | nil => rfl
  | cons type types ih => rw [texts, List.map_cons, ih]

lemma allNames_eq_flatMap (types : List WrittenType) :
    allNames types = types.flatMap names := by
  induction types with
  | nil => rfl
  | cons type types ih => rw [allNames, List.flatMap_cons, ih]

/-- A name with arguments is proper when it can be read and its arguments are proper. -/
lemma isProper_named {args : List WrittenType} (hname : IsDotted name)
    (hargs : ∀ arg ∈ args, arg.IsProper) : (named name args).IsProper := by
  refine ⟨List.forall_mem_cons.mpr ⟨hname, ?_⟩, .named fun arg harg => (hargs arg harg).2⟩
  rw [allNames_eq_flatMap, List.forall_mem_flatMap]
  exact fun arg harg => (hargs arg harg).1

lemma IsProper.args {args : List WrittenType} (h : (named name args).IsProper) :
    ∀ arg ∈ args, arg.IsProper := by
  obtain ⟨hnames, hplaced⟩ := h
  have hnames := (List.forall_mem_cons.mp hnames).2
  rw [allNames_eq_flatMap, List.forall_mem_flatMap] at hnames
  cases hplaced with
  | named hargs => exact fun arg harg => ⟨hnames arg harg, hargs arg harg⟩

lemma IsProper.element {element : WrittenType} (h : (array element).IsProper) :
    element.isWildcard = false ∧ element.IsProper := by
  obtain ⟨hnames, hplaced⟩ := h
  cases hplaced with
  | array helement h => exact ⟨helement, hnames, h⟩

lemma IsProper.bound {kind : BoundKind} {bound : WrittenType} (h : (bounded kind bound).IsProper) :
    bound.isWildcard = false ∧ bound.IsProper := by
  obtain ⟨hnames, hplaced⟩ := h
  cases hplaced with
  | bounded hbound h => exact ⟨hbound, hnames, h⟩

/-- What is read from a text is proper. -/
lemma isProper_of_parse {text : String} {type : WrittenType} (h : parse text = .ok type) :
    type.IsProper :=
  ⟨isDotted_of_parse h, (parse_wellPlaced h).2⟩

/-- Proper written types with the same text are the same. -/
lemma eq_of_text_eq {type type' : WrittenType} (h : type.IsProper) (h' : type'.IsProper)
    (htext : type.text = type'.text) : type = type' := by
  -- As the only argument of a name, a wildcard is read back as well.
  have hparse : ∀ type : WrittenType, type.IsProper →
      parse (named "A" [type]).text = .ok (named "A" [type]) := by
    intro type htype
    have hproper : (named "A" [type]).IsProper :=
      isProper_named (by decide +kernel) (List.forall_mem_singleton.mpr htype)
    exact parse_text_of_proper hproper.1 rfl hproper.2
  have htexts : (named "A" [type]).text = (named "A" [type']).text := by
    simp only [text_named_cons, texts, htext]
  have heq := hparse type h
  rw [htexts, hparse type' h'] at heq
  obtain ⟨-, heq⟩ := WrittenType.named.inj (Except.ok.inj heq)
  exact (List.cons.inj heq).1.symm

/-- A condition on written types that holds of what is read from texts and is inherited by parts. -/
structure Inherited (p : WrittenType → Prop) : Prop where
  parsed : ∀ text type, parse text = .ok type → p type
  args : ∀ name args, p (.named name args) → ∀ arg ∈ args, p arg
  element : ∀ element, p (.array element) → p element
  bound : ∀ kind bound, p (.bounded kind bound) → p bound

lemma inherited_true : Inherited fun _ => True :=
  ⟨fun _ _ _ => trivial, fun _ _ _ _ _ => trivial, fun _ _ => trivial, fun _ _ _ => trivial⟩

lemma inherited_isProper : Inherited IsProper where
  parsed _ _ := isProper_of_parse
  args _ _ := IsProper.args
  element _ h := h.element.2
  bound _ _ h := h.bound.2

end ParcelCompanion.WrittenType
