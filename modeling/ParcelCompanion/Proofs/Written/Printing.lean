import ParcelCompanion.Proofs.Written.Placement

/-!
# Written types and their texts

The text of a written type puts no brackets around its parts and does not look into its names.  So
a tree that no text has may share its text with another tree, or have a text that is no type.  The
trees that texts have are those whose names are words with dots between them and whose wildcards are
in place.  Their texts split into tokens that derive them, and so they are read back.
-/

namespace ParcelCompanion.WrittenType

/-! ### Names -/

/-- A name is made of words with dots between them. -/
inductive IsDotted : String → Prop
  | word {word : String} (hword : Token.IsWord word.toList) : IsDotted word
  | dotted {word name : String} (hword : Token.IsWord word.toList) (h : IsDotted name) :
    IsDotted (word ++ "." ++ name)

mutual

/-- The names in a written type. -/
def names : WrittenType → List String
  | .named name args => name :: allNames args
  | .array element => element.names
  | .wildcard => []
  | .bounded _ bound => bound.names

/-- The names in several written types. -/
def allNames : List WrittenType → List String
  | [] => []
  | type :: types => type.names ++ allNames types

end

/-- The names in a phrase. -/
def phraseNames : Phrase → List String
  | .name name => [name]
  | .args args => allNames args
  | .arg arg => arg.names
  | .type type => type.names

lemma names_iterate_array (element : WrittenType) (n : ℕ) :
    (array^[n] element).names = element.names := by
  induction n with
  | zero => rfl
  | succ n ih => rw [Function.iterate_succ_apply', WrittenType.names, ih]

/-- The names in a phrase are made of the words among its tokens. -/
lemma Derives.isDotted {phrase : Phrase} {tokens : List Token} (h : Derives phrase tokens)
    (hwords : ∀ word, .word word ∈ tokens → Token.IsWord word.toList) :
    ∀ name ∈ phraseNames phrase, IsDotted name := by
  induction h with
  | word word => exact List.forall_mem_singleton.mpr (.word (hwords word List.mem_cons_self))
  | dotted word h ih =>
    have hname := ih fun other hother => hwords other (by simp [hother])
    refine List.forall_mem_singleton.mpr (.dotted (hwords word List.mem_cons_self) ?_)
    exact hname _ List.mem_cons_self
  | bare hname n ih =>
    rw [phraseNames, names_iterate_array]
    exact ih fun other hother => hwords other (by simp [hother])
  | applied hname hargs n ihName ihArgs =>
    rw [phraseNames, names_iterate_array]
    refine List.forall_mem_cons.mpr ⟨?_, ?_⟩
    · exact ihName (fun other hother => hwords other (by simp [hother])) _ List.mem_cons_self
    · exact ihArgs fun other hother => hwords other (by simp [hother])
  | last h ih =>
    intro name hname
    rw [phraseNames, allNames, allNames, List.append_nil] at hname
    exact ih hwords name hname
  | more harg hargs ihArg ihArgs =>
    intro name hname
    rw [phraseNames, allNames, List.mem_append] at hname
    rcases hname with hname | hname
    · exact ihArg (fun other hother => hwords other (by simp [hother])) name hname
    · exact ihArgs (fun other hother => hwords other (by simp [hother])) name hname
  | wildcard => exact nofun
  | bounded kind h ih => exact ih fun other hother => hwords other (by simp [hother])
  | plain h ih => exact ih hwords

/-! ### Texts of types -/

/-- Brackets behind the tokens of a type make an array of it. -/
lemma Derives.array {type : WrittenType} {tokens : List Token} (h : Derives (.type type) tokens) :
    Derives (.type type.array) (tokens ++ [.brackets]) := by
  cases h with
  | bare hname n =>
    have harray := Derives.bare hname (n + 1)
    rwa [Function.iterate_succ_apply', List.replicate_succ', ← List.append_assoc] at harray
  | applied hname hargs n =>
    have harray := Derives.applied hname hargs (n + 1)
    rwa [Function.iterate_succ_apply', List.replicate_succ', ← List.cons_append,
      ← List.append_assoc] at harray

/-- A name splits into tokens that derive it. -/
lemma IsDotted.exists_tokens {name : String} (h : IsDotted name) :
    ∃ tokens, Token.Splits name.toList tokens ∧ Derives (.name name) tokens := by
  induction h with
  | @word word hword => exact ⟨_, Token.splits_word hword, .word word⟩
  | @dotted word name hword h ih =>
    obtain ⟨tokens, hsplits, hderives⟩ := ih
    refine ⟨_, ?_, .dotted word hderives⟩
    rw [String.toList_append, String.toList_append, List.append_assoc]
    exact (Token.splits_word hword).append_mark .dot rfl hsplits

/-- The words that introduce bounds are words. -/
lemma isWord_keyword (kind : BoundKind) : Token.IsWord kind.keyword.toList := by
  cases kind <;>
    exact ⟨_, _, rfl, by decide +kernel, List.all_eq_true.mp (by decide +kernel)⟩

lemma text_named_nil (name : String) : (named name []).text = name := rfl

lemma text_named_cons (name : String) (arg : WrittenType) (args : List WrittenType) :
    (named name (arg :: args)).text =
      name ++ "<" ++ String.intercalate "," (texts (arg :: args)) ++ ">" := by
  rw [text, if_neg (by simp)]

mutual

/-- The text of a type with proper names and wildcards splits into tokens that derive it. -/
lemma exists_tokens (type : WrittenType) (hnames : ∀ name ∈ type.names, IsDotted name)
    (hplaced : type.WellPlaced) :
    ∃ tokens, Token.Splits type.text.toList tokens ∧ Derives (.arg type) tokens ∧
      (type.isWildcard = false → Derives (.type type) tokens) := by
  match type with
  | .named name [] =>
    obtain ⟨tokens, hsplits, hderives⟩ := (hnames name List.mem_cons_self).exists_tokens
    have htype : Derives (.type (.named name [])) (tokens ++ List.replicate 0 .brackets) :=
      .bare hderives 0
    rw [List.replicate_zero, List.append_nil] at htype
    exact ⟨tokens, hsplits, .plain htype, fun _ => htype⟩
  | .named name (arg :: args) =>
    obtain ⟨hname, hargs⟩ := List.forall_mem_cons.mp hnames
    obtain ⟨tokens, hsplits, hderives⟩ := hname.exists_tokens
    have hplaced' : ∀ type ∈ arg :: args, type.WellPlaced := by
      cases hplaced with
      | named h => exact h
    obtain ⟨tokens', hsplits', hderives'⟩ :=
      exists_tokens_args (arg :: args) (List.cons_ne_nil arg args) hargs hplaced'
    have htype := Derives.applied hderives hderives' 0
    refine ⟨_, ?_, .plain htype, fun _ => htype⟩
    rw [text_named_cons]
    have hclosed := hsplits'.append_mark .greater rfl .nil
    have hopened := hsplits.append_mark .less rfl hclosed
    simpa [Token.text] using hopened
  | .array element =>
    obtain ⟨helement, hplaced'⟩ : element.isWildcard = false ∧ element.WellPlaced := by
      cases hplaced with
      | array helement h => exact ⟨helement, h⟩
    obtain ⟨tokens, hsplits, -, htype⟩ := exists_tokens element hnames hplaced'
    have harray := (htype helement).array
    refine ⟨_, ?_, .plain harray, fun _ => harray⟩
    have hbrackets := hsplits.append_mark .brackets rfl .nil
    simpa [text, Token.text] using hbrackets
  | .wildcard => exact ⟨_, @Token.Splits.mark .question _ _ rfl .nil, .wildcard, nofun⟩
  | .bounded kind bound =>
    obtain ⟨hbound, hplaced'⟩ : bound.isWildcard = false ∧ bound.WellPlaced := by
      cases hplaced with
      | bounded hbound h => exact ⟨hbound, h⟩
    obtain ⟨tokens, hsplits, -, htype⟩ := exists_tokens bound hnames hplaced'
    refine ⟨_, ?_, .bounded kind (htype hbound), nofun⟩
    have hspace : Text.isWhiteSpace ' ' = true := by decide
    have hkeyword : Token.IsWord kind.keyword.toList := isWord_keyword kind
    have hword := (Token.splits_word hkeyword).append (.space hspace hsplits) (by
      intro c hc
      obtain rfl : ' ' = c := by simpa using hc
      decide +kernel)
    have hmark := @Token.Splits.mark .question _ _ rfl (.space hspace hword)
    simpa [text, Token.text] using hmark
termination_by structural type

/-- The texts of arguments, with commas between them, split into tokens that derive them. -/
lemma exists_tokens_args (args : List WrittenType) (hne : args ≠ [])
    (hnames : ∀ name ∈ allNames args, IsDotted name) (hplaced : ∀ arg ∈ args, arg.WellPlaced) :
    ∃ tokens, Token.Splits (String.intercalate "," (texts args)).toList tokens ∧
      Derives (.args args) tokens := by
  match args with
  | [] => exact absurd rfl hne
  | [arg] =>
    rw [allNames, allNames, List.append_nil] at hnames
    obtain ⟨tokens, hsplits, harg, -⟩ := exists_tokens arg hnames (hplaced arg List.mem_cons_self)
    exact ⟨tokens, by simpa [texts] using hsplits, .last harg⟩
  | arg :: next :: args =>
    rw [allNames] at hnames
    obtain ⟨hnames, hnames'⟩ := List.forall_mem_append.mp hnames
    obtain ⟨harg, hargs⟩ := List.forall_mem_cons.mp hplaced
    obtain ⟨tokens, hsplits, hderives, -⟩ := exists_tokens arg hnames harg
    obtain ⟨tokens', hsplits', hderives'⟩ :=
      exists_tokens_args (next :: args) (List.cons_ne_nil next args) hnames' hargs
    refine ⟨_, ?_, .more hderives hderives'⟩
    have hcomma := hsplits.append_mark .comma rfl hsplits'
    simpa [texts, Token.text, List.intercalate] using hcomma
termination_by structural args

end

/-! ### Printing and reading -/

/-- Whatever text a type was read from, its names are made of words. -/
lemma isDotted_of_parse {text : String} {type : WrittenType} (h : parse text = .ok type) :
    ∀ name ∈ type.names, IsDotted name := by
  obtain ⟨tokens, hsplits, hderives⟩ := parse_eq_ok_iff.mp h
  exact hderives.isDotted fun _ => hsplits.isWord

/-- A type with proper names and wildcards is read from its text. -/
lemma parse_text_of_proper {type : WrittenType} (hnames : ∀ name ∈ type.names, IsDotted name)
    (hproper : type.isWildcard = false) (hplaced : type.WellPlaced) :
    parse type.text = .ok type := by
  obtain ⟨tokens, hsplits, -, htype⟩ := exists_tokens type hnames hplaced
  exact parse_eq_ok_iff.mpr ⟨tokens, hsplits, htype hproper⟩

/-- A type is read from its text exactly when its names are words with dots between them and its
wildcards are type arguments.  That holds of every type that is read from any text. -/
theorem parse_text_iff (type : WrittenType) :
    (parse type.text = .ok type ↔
      (∀ name ∈ type.names, IsDotted name) ∧ type.isWildcard = false ∧ type.WellPlaced) ∧
      ∀ text, parse text = .ok type → parse type.text = .ok type := by
  refine ⟨⟨fun h => ⟨isDotted_of_parse h, parse_wellPlaced h⟩, ?_⟩, fun text h => ?_⟩
  · rintro ⟨hnames, hproper, hplaced⟩
    exact parse_text_of_proper hnames hproper hplaced
  · obtain ⟨hproper, hplaced⟩ := parse_wellPlaced h
    exact parse_text_of_proper (isDotted_of_parse h) hproper hplaced

/-- The words of bounds are names elsewhere, and blanks are lost. -/
example : (parse "super . Map <K,? extends extends [][]>").map text =
    .ok "super.Map<K,? extends extends[][]>" := by
  decide +kernel

end ParcelCompanion.WrittenType
